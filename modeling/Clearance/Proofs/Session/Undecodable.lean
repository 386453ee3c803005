import Clearance.Operations.Batch
import Clearance.Proofs.Invariant
import Clearance.Proofs.Object
import Clearance.Proofs.Permission.Codec
import Clearance.Proofs.Resolver.Forecast
import Clearance.Proofs.Session.Steps

/-! Stored snapshots that cannot be decoded. Wherever one is in the way, the run is as it would be
if nothing were stored under that key. Until the user is looked up, the two runs differ in the entry
and in nothing else; the look-up drops it, and from then on they do not differ at all. -/
namespace Clearance

namespace Scene

variable {ε α : Type} {u : UserId} {n : Nat} {kv : KeyValueStore} {s s' : Scene}

def without (s : Scene) (u : UserId) : Scene :=
  { s with world := { s.world with keyValues := s.world.keyValues.delete (persistentKey u) } }

/-- No request is disrupted any more, and the scenes are the same up to what is stored under keys,
what has been logged and which requests have been made. -/
structure Alike (s s' : Scene) : Prop where
  contexts : s.world.contexts = s'.world.contexts
  assignments : s.world.assignments = s'.world.assignments
  metrics : s.world.metrics = s'.world.metrics
  root : s.root = s'.root
  shared : s.shared = s'.shared
  counters : s.counters = s'.counters
  held : s.held = s'.held
  calm : s.world.ahead = .none
  calm' : s'.world.ahead = .none

/-- The user has not been looked up since `n` keys had been read: what is stored is `kv`, in the
second scene without the user. -/
structure Unread (u : UserId) (kv : KeyValueStore) (n : Nat) (s s' : Scene) : Prop
    extends Alike s s' where
  stored : s.world.keyValues = kv
  absent : s'.world.keyValues = kv.delete (persistentKey u)
  made : s.world.callCount .getKey = n
  notHeld : s.held.get? u = none
  notShared : s.shared.get? (sharedKey u) = none

/-- More than `n` keys have been read, and the same is stored in both scenes. -/
structure Joined (n : Nat) (s s' : Scene) : Prop extends Alike s s' where
  keyValues : s.world.keyValues = s'.world.keyValues
  made : n < s.world.callCount .getKey

/-- The scenes go the same way, apart until the user is looked up and as one from then on. -/
def Converge (u : UserId) (kv : KeyValueStore) (n : Nat) (s s' : Scene) : Prop :=
  Unread u kv n s s' ∨ Joined n s s'

namespace Alike

theorem noting (h : Alike s s') (c c' : Call) :
    Alike { s with world := s.world.noting c } { s' with world := s'.world.noting c' } where
  contexts := h.contexts
  assignments := h.assignments
  metrics := h.metrics
  root := h.root
  shared := h.shared
  counters := h.counters
  held := h.held
  calm := (World.runFrom_request_of_calm h.calm c fun w => (.ok (), w)).2
  calm' := (World.runFrom_request_of_calm h.calm' c' fun w => (.ok (), w)).2

end Alike

def settled (w : World) : AssignmentStore × KeyValueStore × Metrics × Nat :=
  (w.assignments, w.keyValues, w.metrics, w.callCount .getKey)

theorem apart_settled : World.Apart settled where
  noting w c hc := by
    have hne : c ≠ .getKey := by
      rintro rfl
      cases hc
    rw [settled, World.callCount_noting, if_neg hne]
    rfl
  changed _ _ _ _ _ := rfl

section Resolve

variable {Obj : Type} [DomainObject Obj] (v : Service Obj) (subject : Subject Obj)

/-- Contexts are resolved alike, and nothing else changes. -/
theorem Alike.resolve (h : Alike s s') :
    let t := ((v.resolve subject).runFrom s).2
    let t' := ((v.resolve subject).runFrom s').2
    ((v.resolve subject).runFrom s).1 = ((v.resolve subject).runFrom s').1 ∧ Alike t t' ∧
      settled t.world = settled s.world ∧ settled t'.world = settled s'.world := by
  intro t t'
  have hprospect : s.toAtlas.prospect = s'.toAtlas.prospect :=
    Prod.ext (World.prospect_eq h.contexts (h.calm.trans h.calm'.symm)) h.root
  obtain ⟨hout, hleft⟩ := Resolver.within_prospect_resolve v.resolver subject _ _ hprospect
  obtain ⟨hworld, hroot⟩ := Prod.mk.inj hleft
  have ht : settled t.world = settled s.world :=
    apart_settled.leaves_steps.stages.resolve v.resolver subject s.toAtlas
  have ht' : settled t'.world = settled s'.world :=
    apart_settled.leaves_steps.stages.resolve v.resolver subject s'.toAtlas
  refine ⟨hout, ?_, ht, ht'⟩
  simp only [settled, Prod.mk.injEq] at ht ht'
  obtain ⟨hassignments, -, hmetrics, -⟩ := ht
  obtain ⟨hassignments', -, hmetrics', -⟩ := ht'
  exact {
    contexts := (Prod.mk.inj hworld).1
    assignments := hassignments.trans (h.assignments.trans hassignments'.symm)
    metrics := hmetrics.trans (h.metrics.trans hmetrics'.symm)
    root := hroot
    shared := h.shared
    counters := h.counters
    held := h.held
    calm := v.resolver.ahead_resolve subject h.calm
    calm' := v.resolver.ahead_resolve subject h.calm' }

theorem converge_resolve : (v.resolve subject).Respects (Converge u kv n) := by
  intro s s' hs
  rcases hs with hs | hs
  · obtain ⟨hout, halike, ht, ht'⟩ := hs.toAlike.resolve v subject
    simp only [settled, Prod.mk.injEq] at ht ht'
    exact ⟨hout, .inl ⟨halike, ht.2.1.trans hs.stored, ht'.2.1.trans hs.absent,
      ht.2.2.2.trans hs.made, hs.notHeld, hs.notShared⟩⟩
  · obtain ⟨hout, halike, ht, ht'⟩ := hs.toAlike.resolve v subject
    simp only [settled, Prod.mk.injEq] at ht ht'
    exact ⟨hout, .inr ⟨halike, ht.2.1.trans (hs.keyValues.trans ht'.2.1.symm),
      ht.2.2.2.symm ▸ hs.made⟩⟩

end Resolve

theorem converge_log (e : Event) : (log e : Act Scene ε Unit).Respects (Converge u kv n) :=
  Act.respects_modify fun _ _ hs => hs.imp (fun h => { h with }) fun h => { h with }

namespace Joined

theorem noting (h : Joined n s s') (c : Call) :
    Joined n { s with world := s.world.noting c } { s' with world := s'.world.noting c } where
  toAlike := h.toAlike.noting c c
  keyValues := h.keyValues
  made := by
    rw [World.callCount_noting]
    exact Nat.lt_add_right _ h.made

theorem respects_ask {c : Call} {answer : World → Except StorageError α × World}
    (h : ∀ s s' : Scene, Joined n s s' → (answer s.world).1 = (answer s'.world).1 ∧
      Joined n { s with world := (answer s.world).2 } { s' with world := (answer s'.world).2 }) :
    (ask (World.request c answer)).Respects (Joined n) := by
  intro s s' hs
  rw [runFrom_ask, runFrom_ask, (World.runFrom_request_of_calm hs.calm c answer).1,
    (World.runFrom_request_of_calm hs.calm' c answer).1]
  obtain ⟨hout, hleft⟩ := h _ _ (hs.noting c)
  exact ⟨congrArg (Except.mapError Error.storage) hout, hleft⟩

theorem respects_steps (c : CacheConfig) (u : UserId) :
    Cache.Steps c u fun t => t.Respects (Joined n) where
  ofExcept := Act.respects_ofExcept
  bind := Act.Respects.bind
  heldOf s s' hs := ⟨congrArg (fun h : Held => Except.ok (h.get? u)) hs.held, hs⟩
  sharedOf s s' hs :=
    ⟨congrArg (fun m : SortedMap String Snapshot => Except.ok (m.get? (sharedKey u))) hs.shared, hs⟩
  hold p := Act.respects_modify fun _ _ hs =>
    { hs with held := congrArg (SortedMap.insert · u p) hs.held }
  share p := by
    refine Act.respects_modify fun s s' hs => ?_
    by_cases hkeeps : c.sharedKeeps = true
    · rw [if_pos hkeeps, if_pos hkeeps]
      exact { hs with shared := congrArg (SortedMap.insert · (sharedKey u) p) hs.shared }
    · rw [if_neg hkeeps, if_neg hkeeps]
      exact hs
  getKey := respects_ask fun s s' hs => ⟨by rw [hs.keyValues], hs⟩
  setKey value ttl := by
    refine respects_ask fun s s' hs => ?_
    rw [hs.keyValues]
    cases s'.world.keyValues.set (persistentKey u) value ttl with
    | error e => exact ⟨rfl, hs⟩
    | ok kv => exact ⟨rfl, { hs with keyValues := rfl }⟩
  deleteKey := respects_ask fun s s' hs =>
    ⟨rfl, { hs with keyValues := congrArg (KeyValueStore.delete · (persistentKey u)) hs.keyValues }⟩
  loadAssignments := respects_ask fun s s' hs => ⟨by rw [hs.assignments], hs⟩
  counters f := Act.respects_modify fun _ _ hs => { hs with counters := congrArg f hs.counters }
  count f := Act.respects_modify fun _ _ hs => { hs with metrics := congrArg f hs.metrics }
  log _ := Act.respects_modify fun _ _ hs => { hs with }

end Joined

end Scene

namespace Cache

open Scene

variable {u : UserId} {n : Nat} {kv : KeyValueStore} {b : ByteArray} {s s' : Scene}

def missed (s : Scene) : Scene :=
  { s with
    world := s.world.count fun m => { m with misses := m.misses + 1 }
    counters := { s.counters with misses := s.counters.misses + 1 } }

theorem runFrom_countMiss (s : Scene) :
    (countMiss : Act Scene Error Unit).runFrom s = (.ok (), missed s) := rfl

theorem lookUpPersistent_of_absent (c : CacheConfig) (hcalm : s.world.ahead = .none)
    (h : s.world.keyValues.get (persistentKey u) = none) :
    (lookUpPersistent c u).runFrom s =
      (.ok none, missed { s with world := s.world.noting .getKey }) := by
  have hget : (ask (World.getKey (persistentKey u))).runFrom s =
      (.ok none, { s with world := s.world.noting .getKey }) := by
    rw [runFrom_ask, World.getKey, (World.runFrom_request_of_calm hcalm ..).1]
    simp only [World.noting, h]
    rfl
  exact (Act.runFrom_bind_ok hget _).trans (Act.runFrom_bind_ok (runFrom_countMiss _) _)

/-- A look-up of somebody whose stored bytes cannot be decoded: they are deleted, and then it goes on
as if there had been none. -/
theorem lookUpPersistent_of_undecodable (c : CacheConfig) (hcalm : s.world.ahead = .none)
    (h : s.world.keyValues.get (persistentKey u) = some b) (hb : Snapshot.ofBytes? b = none) :
    ∃ w, w.ahead = .none ∧ w.callCount .getKey = s.world.callCount .getKey + 1 ∧
      w.contexts = s.world.contexts ∧ w.assignments = s.world.assignments ∧
      w.metrics = s.world.metrics ∧ w.keyValues = s.world.keyValues.delete (persistentKey u) ∧
      (lookUpPersistent c u).runFrom s = (.ok none, missed { s with world := w }) := by
  let read := (s.world.noting .getKey).log (.undecodableDropped u)
  have hread : read.ahead = .none :=
    (World.runFrom_request_of_calm hcalm .getKey fun w => (.ok (), w)).2
  have hget : (ask (World.getKey (persistentKey u))).runFrom s =
      (.ok (some b), { s with world := s.world.noting .getKey }) := by
    rw [runFrom_ask, World.getKey, (World.runFrom_request_of_calm hcalm ..).1]
    simp only [World.noting, h]
    rfl
  have hdelete : (ask (World.deleteKey (persistentKey u))).runFrom { s with world := read } =
      (.ok (), { s with world := { read.noting .deleteKey with
        keyValues := s.world.keyValues.delete (persistentKey u) } }) := by
    rw [runFrom_ask, World.deleteKey, (World.runFrom_request_of_calm hread ..).1]
    rfl
  refine ⟨{ read.noting .deleteKey with
    keyValues := s.world.keyValues.delete (persistentKey u) }, ?_, ?_, rfl, rfl, rfl, rfl, ?_⟩
  · exact (World.runFrom_request_of_calm hread .deleteKey fun w => (.ok (), w)).2
  · show (read.noting .deleteKey).callCount .getKey = _
    rw [World.callCount_noting]
    show (s.world.noting .getKey).callCount .getKey + _ = _
    rw [World.callCount_noting]
    rfl
  · refine (Act.runFrom_bind_ok hget _).trans ?_
    simp only [hb]
    refine (Act.runFrom_bind_ok (Act.runFrom_modify _ _) _).trans ?_
    exact (Act.runFrom_bind_ok hdelete _).trans (Act.runFrom_bind_ok (runFrom_countMiss _) _)

theorem runFrom_lookUp_of_uncached (c : CacheConfig) (hheld : s.held.get? u = none)
    (hshared : s.shared.get? (sharedKey u) = none) :
    (lookUp c u).runFrom s = (lookUpPersistent c u).runFrom s := by
  have hheldOf : (heldOf u : Act Scene Error _).runFrom s = (.ok none, s) := by
    rw [← hheld]
    rfl
  have hsharedOf : (sharedOf u : Act Scene Error _).runFrom s = (.ok none, s) := by
    rw [← hshared]
    rfl
  rw [lookUp_eq, Act.runFrom_bind_ok hheldOf, Act.runFrom_bind_ok hsharedOf]

theorem joined_missed (h : Joined n s s') : Joined n (missed s) (missed s') :=
  { h with
    metrics := congrArg (fun m : Metrics => { m with misses := m.misses + 1 }) h.metrics
    counters := congrArg (fun c : Counters => { c with misses := c.misses + 1 }) h.counters }

/-- In both scenes the first look-up is a miss, and they are the same afterwards. -/
theorem lookUp_of_unread (c : CacheConfig) (hstored : kv.get (persistentKey u) = some b)
    (hb : Snapshot.ofBytes? b = none) (hs : Unread u kv n s s') :
    ∃ t t', (lookUp c u).runFrom s = (.ok none, t) ∧ (lookUp c u).runFrom s' = (.ok none, t') ∧
      Joined n t t' := by
  obtain ⟨w, hcalm, hmade, hcontexts, hassignments, hmetrics, hkeyValues, hrun⟩ :=
    lookUpPersistent_of_undecodable c hs.calm (by rw [hs.stored]; exact hstored) hb
  have hrun' := lookUpPersistent_of_absent (u := u) c hs.calm'
    (by rw [hs.absent]; exact kv.get_delete_self _)
  rw [← runFrom_lookUp_of_uncached c hs.notHeld hs.notShared] at hrun
  rw [← runFrom_lookUp_of_uncached c (hs.held ▸ hs.notHeld) (hs.shared ▸ hs.notShared)] at hrun'
  refine ⟨_, _, hrun, hrun', joined_missed ?_⟩
  exact {
    contexts := hcontexts.trans hs.contexts
    assignments := hassignments.trans hs.assignments
    metrics := hmetrics.trans hs.metrics
    root := hs.root
    shared := hs.shared
    counters := hs.counters
    held := hs.held
    calm := hcalm
    calm' := (World.runFrom_request_of_calm hs.calm' .getKey fun w => (.ok (), w)).2
    keyValues := hkeyValues.trans (by rw [hs.stored]; exact hs.absent.symm)
    made := by
      show n < w.callCount .getKey
      rw [hmade, hs.made]
      exact Nat.lt_succ_self n }

end Cache

def KeyValueStore.Decodes (kv : KeyValueStore) (u : UserId) : Prop :=
  ∀ bytes, kv.get (persistentKey u) = some bytes → (Snapshot.ofBytes? bytes).isSome = true

def Invariant.decodes (Obj : Type) (u : UserId) : Invariant Obj where
  room _ := True
  stock k := k.keyValues.Decodes u
  root _ := True
  engine _ := True
  resolver _ := True
  good _ _ := True
  kept _ _ := True

/-- Nothing is stored of a user but snapshots. -/
theorem Invariant.decodes_sound {Obj : Type} [DomainObject Obj] (u : UserId) :
    (decodes Obj u).Sound := by
  have hkeeps {α : Type} {t : Act Atlas Error α} (h : t.Leaves Atlas.backing) :
      t.Keeps (decodes Obj u).onAtlas := by
    intro a ha room
    refine ⟨?_, trivial⟩
    show (t.runFrom a).2.world.keyValues.Decodes u
    rw [(Prod.mk.inj (h a)).2]
    exact (ha room).1
  exact {
    resolver := fun _ => trivial
    resolve := fun subject _ => hkeeps (Resolver.leaves_resolve _ subject)
    readRoot := hkeeps Resolver.leaves_root
    lookUp := fun o => hkeeps (Resolver.leaves_lookUp o)
    kept := fun _ => trivial
    loaded := fun _ _ => trivial
    served := fun _ _ _ => trivial
    written := fun {k w p ttl} hk _ bytes hbytes => by
      rcases KeyValueStore.get_insert_eq_some hbytes with ⟨-, rfl⟩ | ⟨-, hold⟩
      · rw [Snapshot.ofBytes?_toBytes]
        rfl
      · exact hk bytes hold
    recorded := fun {k value ttl} hk bytes hbytes => by
      rcases KeyValueStore.get_insert_eq_some hbytes with ⟨hkey, -⟩ | ⟨-, hold⟩
      · exact absurd hkey (persistentKey_ne_metricsKey u)
      · exact hk bytes hold
    deleted := fun hk bytes hbytes => hk bytes (KeyValueStore.get_of_delete hbytes).2 }

namespace Scene

/-- The computation goes as if nothing were stored of the user: it has the same outcome and leaves
the same contexts, tiers and counters. Either it reads what is stored of the user, and then the same
is stored in the end, of the user nothing that cannot be decoded; or it leaves alone what is
stored. -/
structure AsIfAbsent {ε α : Type} (u : UserId) (s : Scene) (t : Act Scene ε α) : Prop where
  outcome : (t.runFrom s).1 = (t.runFrom (s.without u)).1
  alike : Alike (t.runFrom s).2 (t.runFrom (s.without u)).2
  keys : let left := (t.runFrom s).2.world
    let left' := (t.runFrom (s.without u)).2.world
    s.world.callCount .getKey < left.callCount .getKey ∧ left.keyValues = left'.keyValues ∧
        left.keyValues.Decodes u ∨
      left.callCount .getKey = s.world.callCount .getKey ∧ left.keyValues = s.world.keyValues ∧
        left'.keyValues = s.world.keyValues.delete (persistentKey u)

/-- Scenes that converge are all that has to be shown, for every operation leaves what can be
decoded. -/
theorem asIfAbsent_of_converge {Obj ε α : Type} {u : UserId} {s : Scene} {t : Act Scene ε α}
    (hconverge : (t.runFrom s).1 = (t.runFrom (s.without u)).1 ∧
      Converge u s.world.keyValues (s.world.callCount .getKey) (t.runFrom s).2
        (t.runFrom (s.without u)).2)
    (hdecodes : t.Keeps (Invariant.decodes Obj u).OnScene) : AsIfAbsent u s t := by
  obtain ⟨hout, hleft⟩ := hconverge
  have hnone : (s.without u).world.keyValues.get (persistentKey u) = none :=
    s.world.keyValues.get_delete_self _
  have hstart : (Invariant.decodes Obj u).OnScene (s.without u) :=
    ⟨fun _ => ⟨fun _ h => (nomatch hnone.symm.trans h), trivial⟩, fun _ _ _ => trivial,
      fun _ _ _ => trivial⟩
  have hend := ((hdecodes _ hstart).atlas trivial).1
  rcases hleft with hleft | hleft
  · exact ⟨hout, hleft.toAlike, .inr ⟨hleft.made, hleft.stored, hleft.absent⟩⟩
  · refine ⟨hout, hleft.toAlike, .inl ⟨hleft.made, hleft.keyValues, ?_⟩⟩
    rw [hleft.keyValues]
    exact hend

end Scene

namespace Service

open Scene

variable {Obj : Type} {v : Service Obj} {u : UserId} {n : Nat} {kv : KeyValueStore} {b : ByteArray}
  {s s' : Scene}

section Stages

variable (hstored : kv.get (persistentKey u) = some b) (hb : Snapshot.ofBytes? b = none)

include hstored hb

theorem converge_snapshot : (v.snapshot u).Respects (Converge u kv n) := by
  intro s s' hs
  have hsteps := Joined.respects_steps (n := n) v.cache u
  rcases hs with hs | hs
  · obtain ⟨t, t', hrun, hrun', hjoined⟩ := Cache.lookUp_of_unread v.cache hstored hb hs
    have hload := hsteps.loadSnapshot.bind fun p =>
      (hsteps.put p v.cache.persistentTtl).bind fun _ => hsteps.pure p
    obtain ⟨hout, hleft⟩ := hload t t' hjoined
    rw [snapshot, Act.runFrom_bind_ok hrun, Act.runFrom_bind_ok hrun']
    exact ⟨hout, .inr hleft⟩
  · obtain ⟨hout, hleft⟩ := hsteps.snapshot s s' hs
    exact ⟨hout, .inr hleft⟩

theorem converge_stages : Stages v u fun t => t.Respects (Converge u kv n) where
  ofExcept := Act.respects_ofExcept
  bind := Act.Respects.bind
  snapshot := converge_snapshot hstored hb
  log := converge_log

end Stages

theorem converge_inFreshSession {α : Type} {t : Act Scene Error α}
    (ht : t.Respects (Converge u kv n)) (hs : Unread u kv n s s') :
    ((inFreshSession t).runFrom s).1 = ((inFreshSession t).runFrom s').1 ∧
      Converge u kv n ((inFreshSession t).runFrom s).2 ((inFreshSession t).runFrom s').2 := by
  have hfresh : Unread u kv n { s with held := .empty } { s' with held := .empty } :=
    { hs with held := rfl, notHeld := rfl }
  obtain ⟨hout, hleft⟩ := ht _ _ (.inl hfresh)
  exact ⟨hout, hleft.imp (fun h => { h with held := hs.held, notHeld := hs.notHeld })
    fun h => { h with held := hs.held }⟩

end Service

namespace Operations

open Scene Service

variable {Obj : Type} [DomainObject Obj] {v : Service Obj} {subject : Subject Obj} {u : UserId}
  {n : Nat} {kv : KeyValueStore} {b : ByteArray} {s : Scene}

section Batch

variable (hstored : kv.get (persistentKey u) = some b) (hb : Snapshot.ofBytes? b = none)

include hstored hb

theorem converge_checkEach (answers : SortedMap String Bool) (abilities : List String) :
    (checkEach v u subject answers abilities).Respects (Converge u kv n) := by
  induction abilities generalizing answers with
  | nil => exact Act.respects_ofExcept (.ok answers)
  | cons ability rest ih =>
    unfold checkEach
    split
    · exact ih answers
    · have hcheck : (v.check u ability subject).Respects (Converge u kv n) :=
        (converge_stages hstored hb).check (converge_resolve v subject) ability
      have hplain : (checkPlain v u ability subject).Respects (Converge u kv n) := by
        refine hcheck.attempt.bind fun r => ?_
        split
        · exact Act.respects_ofExcept (.ok _)
        · exact Act.respects_ofExcept (.ok _)
        · exact Act.respects_ofExcept (.error _)
      exact hplain.bind fun allowed => ih _

theorem converge_checkBatch (abilities : List String) :
    (checkBatch v u abilities subject).Matches (Unread u kv n)
      (fun _ => Converge u kv n) fun _ => Converge u kv n := by
  unfold checkBatch
  cases batchProblem? abilities with
  | some e => exact Act.matches_throw fun _ _ hs => .inl hs
  | none =>
    have hcounters : (countBatch abilities.length).Respects (Converge u kv n) := by
      refine Act.Respects.bind (Act.respects_modify fun _ _ hs => ?_) fun _ =>
        Act.respects_modify fun _ _ hs => ?_
      · let f (c : Counters) : Counters := { c with batchChecks := c.batchChecks + abilities.length }
        exact hs.imp (fun h => { h with counters := congrArg f h.counters })
          fun h => { h with counters := congrArg f h.counters }
      · let f (m : Metrics) : Metrics :=
          { m with batchChecks := m.batchChecks + abilities.length, batchSamples := m.batchSamples + 1 }
        exact hs.imp (fun h => { h with metrics := congrArg f h.metrics })
          fun h => { h with metrics := congrArg f h.metrics }
    have hchecks : (inFreshSession (checkEach v u subject .empty abilities)).Matches
        (Unread u kv n) (fun _ => Converge u kv n) fun _ => Converge u kv n :=
      Act.matches_of_left fun _ _ => converge_inFreshSession (converge_checkEach hstored hb _ _)
    refine (hchecks.mapError (g := BatchError.check)).bind fun answers => ?_
    refine hcounters.matches.bind fun _ => (converge_log _).matches.bind fun _ => ?_
    exact Act.matches_pure fun _ _ hs => hs

end Batch

/-- Bytes that cannot be decoded are as good as none. Where nothing is disrupted and a user is
neither held nor shared, whatever is asked about the user has the outcome that it would have if the
user's key were absent, and leaves the same. -/
theorem asIfAbsent_of_undecodable (v : Service Obj) (subject : Subject Obj)
    (hcalm : s.world.ahead = .none) (hheld : s.held.get? u = none)
    (hshared : s.shared.get? (sharedKey u) = none)
    (hstored : s.world.keyValues.get (persistentKey u) = some b)
    (hb : Snapshot.ofBytes? b = none) :
    (∀ ability, AsIfAbsent u s (v.check u ability subject)) ∧
    (∀ ability, AsIfAbsent u s (v.authorize u ability subject)) ∧
    (∀ name, AsIfAbsent u s (v.hasRole u name subject)) ∧
    AsIfAbsent u s (v.isSuperAdmin u) ∧
    ∀ abilities, AsIfAbsent u s (checkBatch v u abilities subject) := by
  have hunread : Unread u s.world.keyValues (s.world.callCount .getKey) s (s.without u) :=
    ⟨⟨rfl, rfl, rfl, rfl, rfl, rfl, rfl, hcalm, hcalm⟩, rfl, rfl, rfl, hheld, hshared⟩
  let R : Scene → Scene → Prop := Converge u s.world.keyValues (s.world.callCount .getKey)
  have hstages : Stages v u fun t => t.Respects R := converge_stages hstored hb
  have hresolve : (v.resolve subject).Respects R := converge_resolve v subject
  have hupkeep : v.Parts fun t => t.Keeps (Invariant.decodes Obj u).OnScene :=
    ((Invariant.decodes_sound u).upkeep trivial).parts
  have hsession {α : Type} {t : Act Scene Error α}
      (ht : t.Respects R) (hkeeps : t.Keeps (Invariant.decodes Obj u).OnScene) : AsIfAbsent u s t :=
    asIfAbsent_of_converge (ht _ _ (.inl hunread)) hkeeps
  refine ⟨fun ability => hsession (hstages.check hresolve ability) (hupkeep.check u ability subject),
    fun ability => hsession (hstages.authorize hresolve ability) (hupkeep.authorize u ability subject),
    fun name => hsession (hstages.hasRole hresolve name) (hupkeep.hasRole u name subject),
    hsession hstages.isSuperAdmin (hupkeep.isSuperAdmin u), fun abilities => ?_⟩
  exact asIfAbsent_of_converge ((converge_checkBatch hstored hb abilities).left
    (fun _ _ _ hs => hs) (fun _ _ _ hs => hs) hunread) (hupkeep.checkBatch u abilities subject)

/-- An opening brace is stored of the user 7, who reads a file: the first check loads what the user
holds, as it would have done without the brace, and leaves that in its place. -/
theorem asIfAbsent_of_undecodable_brace :
    let v : Service Strand := ⟨⟨.ofList ["file"], 25⟩, .empty, {}⟩
    let file : Strand := ⟨⟨"file", 1⟩, [⟨"folder", 7⟩]⟩
    let reader : Role := ⟨"reader", .insert .empty "read"⟩
    let assignments : AssignmentStore := ⟨.insert .empty 1 reader, .insert .empty 7 [⟨1, rootId⟩]⟩
    let brace : ByteArray := "\x7b".toUTF8
    let keyValues : KeyValueStore := ⟨.insert .empty (persistentKey 7) ⟨brace, 60⟩⟩
    let s : Scene := ⟨⟨{ World.new with assignments, keyValues }, none⟩, .empty, {}, .empty⟩
    let t := (v.check 7 "read" (.object file)).runFrom s
    s.world.keyValues.get (persistentKey 7) = some brace ∧ Snapshot.ofBytes? brace = none ∧
      t.1 = .ok true ∧ t.2.world.keyValues.contains (persistentKey 7) = true ∧
      t.2.counters.misses = 1 ∧ t.2.world.contexts.size = 3 ∧
      AsIfAbsent 7 s (v.check 7 "read" (.object file)) ∧
      AsIfAbsent 7 s (checkBatch v 7 ["read", "edit"] (.object file)) := by
  intro v file reader assignments brace keyValues s
  have hstored : s.world.keyValues.get (persistentKey 7) = some brace :=
    KeyValueStore.get_insert_self _ _ _ (by decide)
  have hb : Snapshot.ofBytes? brace = none := by decide +kernel
  obtain ⟨hcheck, -, -, -, hbatch⟩ :=
    asIfAbsent_of_undecodable v (.object file) (s := s) (u := 7) rfl rfl rfl hstored hb
  have hrun : let run := (v.check 7 "read" (.object file)).runFrom s
      run.1 = .ok true ∧ run.2.world.keyValues.contains (persistentKey 7) = true ∧
        run.2.counters.misses = 1 ∧ run.2.world.contexts.size = 3 := by decide +kernel
  obtain ⟨hanswer, hwritten, hmissed, hcreated⟩ := hrun
  exact ⟨hstored, hb, hanswer, hwritten, hmissed, hcreated, hcheck "read", hbatch _⟩

end Operations

end Clearance
