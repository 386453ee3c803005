import Clearance.Proofs.Deployment.Store
import Clearance.Proofs.Invariant.Deployment
import Clearance.Proofs.Permission.Codec
import Clearance.Proofs.Resolver.Steps

/-! Caches whose entries are vouched for. No operation of a session puts anything into a tier but
what it has loaded or found in a lower one, so whatever is true of every loaded snapshot stays true
of every cached one. Entries of the lower tiers may vanish at any time. -/
namespace Clearance

namespace KeyValueStore

variable {good good' : UserId → Snapshot → Prop} {s : KeyValueStore}

def Vouched (good : UserId → Snapshot → Prop) (s : KeyValueStore) : Prop :=
  ∀ u bytes, s.get (persistentKey u) = some bytes → ∃ p, good u p ∧ bytes = p.toBytes

theorem vouched_empty : empty.Vouched good := fun _ _ h => by cases h

theorem Vouched.insertSnapshot (h : s.Vouched good) {u : UserId} {p : Snapshot} (hp : good u p)
    (ttl : Nat) : Vouched good ⟨s.entries.insert (persistentKey u) ⟨p.toBytes, ttl⟩⟩ := by
  intro v bytes hv
  rcases get_insert_eq_some hv with ⟨hkey, hbytes⟩ | ⟨-, hold⟩
  · rw [persistentKey_injective hkey]
    exact ⟨p, hp, hbytes⟩
  · exact h v bytes hold

theorem Vouched.insertMetrics (h : s.Vouched good) (value : ByteArray) (ttl : Nat) :
    Vouched good ⟨s.entries.insert metricsKey ⟨value, ttl⟩⟩ := by
  intro v bytes hv
  rcases get_insert_eq_some hv with ⟨hkey, -⟩ | ⟨-, hold⟩
  · exact absurd hkey (persistentKey_ne_metricsKey v)
  · exact h v bytes hold

theorem Vouched.delete (h : s.Vouched good) (key : String) : (s.delete key).Vouched good :=
  fun v bytes hv => h v bytes (get_of_delete hv).2

end KeyValueStore

namespace Invariant

variable {Obj : Type}

/-- The assignments are these, the lower tiers hold of a user what is good for it, and the first
tier what may be kept. -/
def vouched (engine : Engine Obj → Prop) (a : AssignmentStore)
    (good kept : UserId → Snapshot → Prop) : Invariant Obj where
  room _ := True
  stock k := k.assignments = a ∧ k.keyValues.Vouched good
  root _ := True
  engine := engine
  resolver _ := True
  good := good
  kept := kept

section Vouched

variable {engine : Engine Obj → Prop} {a : AssignmentStore} {good kept : UserId → Snapshot → Prop}

theorem keeps_of_leaves {α : Type} {t : Act Atlas Error α} (h : t.Leaves Atlas.backing) :
    t.Keeps (vouched engine a good kept).onAtlas := by
  intro s hs room
  obtain ⟨⟨ha, hv⟩, -⟩ := hs trivial
  obtain ⟨hassignments, hkeyValues⟩ := Prod.mk.inj (h s)
  refine ⟨⟨hassignments.trans ha, ?_⟩, trivial⟩
  show (t.runFrom s).2.world.keyValues.Vouched good
  rw [hkeyValues]
  exact hv

/-- What is loaded has to be good, and what is good may be kept. -/
theorem vouched_sound [DomainObject Obj] (hkept : ∀ {u p}, good u p → kept u p)
    (hloaded : ∀ {u rows}, a.load u = .ok rows → good u (.ofRows rows)) :
    (vouched engine a good kept).Sound where
  resolver _ := trivial
  resolve subject _ := keeps_of_leaves (Resolver.leaves_resolve _ subject)
  readRoot := keeps_of_leaves Resolver.leaves_root
  lookUp o := keeps_of_leaves (Resolver.leaves_lookUp o)
  kept := hkept
  loaded hk hrows := hloaded ((hk trivial).1 ▸ hrows)
  served hk hbytes hp := by
    obtain ⟨q, hq, rfl⟩ := (hk trivial).2 _ _ hbytes
    cases (Snapshot.ofBytes?_toBytes q).symm.trans hp
    exact hq
  written hk hp := ⟨hk.1, hk.2.insertSnapshot hp _⟩
  recorded hk := ⟨hk.1, hk.2.insertMetrics _ _⟩
  deleted hk := ⟨hk.1, hk.2.delete _⟩

variable {d : Deployment Obj}

theorem On.ready (h : (vouched engine a good kept).On d) : (vouched engine a good kept).Ready d :=
  ⟨h, fun _ _ _ => trivial⟩

/-- A command fits if it leaves the roles and the keys of the store alone and puts nothing into the
cache but what is good. -/
theorem fits_vouched {c : Command Obj}
    (hstore : ∀ s, c = .store s → s.changesRoles = false ∧ s.setsKey = false)
    (hact : ∀ name u, c = .session name (.actAsSuperAdmin u) →
      ∀ e, engine e → e.environment = some .production ∨ good u .ofSuperAdmin)
    (hput : ∀ i holder u rows ttl, c = .cache i holder (.put u rows ttl) →
      good u (.ofRows rows)) : (vouched engine a good kept).Fits c := by
  cases c with
  | store s =>
    obtain ⟨hroles, hkey⟩ := hstore s rfl
    let I (k : Stock) := True → k.assignments = a ∧ k.keyValues.Vouched good
    refine StoreCommand.keeps_perform (I := I) s ?_ ?_ ?_ ?_
    · exact fun _ _ _ _ h => h
    · intro h
      cases h.symm.trans hroles
    · rintro key value ttl rfl
      cases hkey
    · exact fun _ _ h room => ⟨(h room).1, (h room).2.delete _⟩
  | session name c =>
    cases c with
    | actAsSuperAdmin u => exact hact name u rfl
    | _ => exact trivial
  | makeGuide name parents maxDepth => exact ⟨trivial, trivial⟩
  | cache i holder c =>
    cases c with
    | put u rows ttl => exact hput i holder u rows ttl rfl
    | _ => exact trivial
  | _ => exact trivial

theorem on_setUp_vouched {contexts : ContextStore} {specs : List (EngineSpec Obj)}
    (he : ∀ s ∈ specs, ∀ {e events}, s.build = .ok (e, events) → engine e) :
    (vouched engine .empty good kept).On (Deployment.setUp contexts specs).1 :=
  on_setUp trivial ⟨rfl, KeyValueStore.vouched_empty⟩ he

theorem On.reassign (h : (vouched engine a good kept).On d) (a' : AssignmentStore) :
    (vouched engine a' good kept).On
      { d with world := { d.world with assignments := a' } } where
  engines := h.engines
  shared := h.shared
  sessions := h.sessions
  holders := h.holders
  guides := h.guides
  stock room := ⟨rfl, (h.stock room).2⟩
  roots _ _ _ := trivial

/-- Every snapshot that is in some tier may turn out to be better than it had to be. -/
theorem On.refine {good' kept' : UserId → Snapshot → Prop} (h : (vouched engine a good kept).On d)
    (hshared : ∀ {i p u q}, d.process? i = some p → p.shared.get? (sharedKey u) = some q →
      good u q → good' u q)
    (hstored : ∀ {u bytes q}, d.world.keyValues.get (persistentKey u) = some bytes →
      good u q → good' u q)
    (hkept : ∀ {u q}, kept u q → kept' u q) : (vouched engine a good' kept').On d where
  engines := h.engines
  shared hp u q hq := hshared hp hq (h.shared hp u q hq)
  sessions hs u q hq := hkept (h.sessions hs u q hq)
  holders hh u q hq := hkept (h.holders hh u q hq)
  guides := h.guides
  stock room := by
    refine ⟨(h.stock room).1, fun u bytes hb => ?_⟩
    obtain ⟨q, hq, hbytes⟩ := (h.stock room).2 u bytes hb
    exact ⟨q, hstored hb hq, hbytes⟩
  roots _ _ _ := trivial

end Vouched

end Invariant

section Loss

variable {Obj : Type}

/-- What is left when a process has lost an entry of its shared memory. -/
def Deployment.evict (d : Deployment Obj) (i : Nat) (key : String) : Deployment Obj :=
  match d.process? i with
  | none => d
  | some p =>
    { d with processes := d.processes.set i (some { p with shared := p.shared.erase key }) }

def Deployment.expire (d : Deployment Obj) (key : String) : Deployment Obj :=
  { d with world := { d.world with keyValues := d.world.keyValues.delete key } }

/-- The same deployment where requests are met in another way from here on. -/
def Deployment.disrupt (d : Deployment Obj) (x : Disruption) : Deployment Obj :=
  { d with world := { d.world with disruption := x } }

variable {d : Deployment Obj}

theorem Invariant.Ready.evict {I : Invariant Obj} (h : I.Ready d) (i : Nat) (key : String) :
    I.On (d.evict i key) := by
  unfold Deployment.evict
  cases hp : d.process? i with
  | none => exact h.on
  | some p =>
    have hs := h.on.onScene hp Invariant.held_empty
    exact h.after hp (s := { p.scene d.world .empty with shared := p.shared.erase key })
      ⟨hs.atlas, hs.shared.erase key, hs.held⟩

theorem Invariant.On.expire {engine : Engine Obj → Prop} {a : AssignmentStore}
    {good kept : UserId → Snapshot → Prop} (h : (vouched engine a good kept).On d)
    (key : String) : (vouched engine a good kept).On (d.expire key) where
  engines := h.engines
  shared := h.shared
  sessions := h.sessions
  holders := h.holders
  guides := h.guides
  stock room := ⟨(h.stock room).1, (h.stock room).2.delete key⟩
  roots _ _ _ := trivial

theorem Invariant.On.disrupt {engine : Engine Obj → Prop} {a : AssignmentStore}
    {good kept : UserId → Snapshot → Prop} (h : (vouched engine a good kept).On d)
    (x : Disruption) : (vouched engine a good kept).On (d.disrupt x) where
  engines := h.engines
  shared := h.shared
  sessions := h.sessions
  holders := h.holders
  guides := h.guides
  stock := h.stock
  roots _ _ _ := trivial

end Loss

end Clearance
