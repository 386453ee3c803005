import Clearance.Proofs.Object
import Clearance.Proofs.Resolver.Descent

/-! The limit on the depth. Resolving searches for so many owners at most on the way up, however long
the chain of the object is. It fails for the depth exactly where the chain goes on past the limit and
nothing within it is stored, and where it fails on the way up, nothing has been made. -/
namespace Clearance

namespace Call

/-- Searches on the way up, `least` to `most` of them, and perhaps a request for the root after them.
The latest request comes first. -/
inductive Ascending (least most : Nat) : List Call → Prop
  | short {n : Nat} : least ≤ n → n ≤ most → Ascending least most (List.replicate n .findContext)
  | full {n : Nat} : least ≤ n → n ≤ most →
      Ascending least most (.getContext :: List.replicate n .findContext)

/-- Creations on the way down, `most` of them at most, each of which may be followed by a search.
The latest request comes first. -/
inductive Descending : Nat → List Call → Prop
  | start {most : Nat} : Descending most []
  | made {most : Nat} {l : List Call} : Descending most l →
      Descending (most + 1) (.createContext :: l)
  | found {most : Nat} {l : List Call} : Descending most l →
      Descending (most + 1) (.findContext :: .createContext :: l)

/-- The requests of a resolution that looks at `most` objects at most: a way up and a way down, with
no more creations than searches before them. -/
inductive Itinerary (most : Nat) : List Call → Prop
  | round {up down : List Call} {passed : Nat} : Ascending passed most up →
      Descending passed down → Itinerary most (down ++ up)

variable {least most : Nat} {l : List Call}

theorem Ascending.length_le (h : Ascending least most l) : l.length ≤ most + 1 := by
  cases h with
  | short hlo hhi =>
    rw [List.length_replicate]
    omega
  | full hlo hhi =>
    rw [List.length_cons, List.length_replicate]
    omega

theorem Ascending.least_le (h : Ascending least most l) : least ≤ most := by
  cases h with
  | short hlo hhi => exact Nat.le_trans hlo hhi
  | full hlo hhi => exact Nat.le_trans hlo hhi

theorem Ascending.not_mem (h : Ascending least most l) : .createContext ∉ l := by
  cases h with
  | short hlo hhi => simp
  | full hlo hhi => simp

theorem Ascending.itinerary (h : Ascending least most l) : Itinerary most l :=
  .round h .start

theorem Descending.add {n : Nat} (h : Descending n l) (k : Nat) : Descending (n + k) l := by
  induction h with
  | start => exact .start
  | made _ ih =>
    rw [Nat.add_right_comm]
    exact .made ih
  | found _ ih =>
    rw [Nat.add_right_comm]
    exact .found ih

theorem Descending.length_le {n : Nat} (h : Descending n l) : l.length ≤ 2 * n := by
  induction h with
  | start => exact Nat.zero_le _
  | made _ ih =>
    rw [List.length_cons]
    omega
  | found _ ih =>
    rw [List.length_cons, List.length_cons]
    omega

theorem Itinerary.length_le (h : Itinerary most l) : l.length ≤ 3 * most + 1 := by
  obtain ⟨hup, hdown⟩ := h
  have hpassed := hup.least_le
  have hbelow := hdown.length_le
  have habove := hup.length_le
  rw [List.length_append]
  omega

end Call

namespace World

theorem calls_request {α : Type} {c : Call} {answer : World → Except StorageError α × World}
    (hquiet : ∀ w, (answer w).2.calls = w.calls) (w : World) :
    ((request c answer).runFrom w).2.calls = c :: w.calls := by
  rw [runFrom_request]
  cases w.disruption.refusal c (w.callCount c) with
  | some e => rfl
  | none => exact hquiet _

theorem calls_createContext (d : Draft) (w : World) :
    ((createContext d).runFrom w).2.calls = .createContext :: w.calls := by
  apply calls_request
  intro w
  cases w.disruption.imposed with
  | some r => rfl
  | none => cases w.contexts.create d <;> rfl

end World

/-- These requests have been made, and the contexts are what they were. -/
structure Atlas.Asks (a : Atlas) (made : List Call) (a' : Atlas) : Prop where
  calls : a'.world.calls = made ++ a.world.calls
  contexts : a'.world.contexts = a.world.contexts

namespace Resolver

variable {Obj : Type} [DomainObject Obj] {a : Atlas} {made base : List Call}

section Up

theorem meets_reading {α : Type} {c : Call} {answer : World → Except StorageError α × World}
    (hcalls : ∀ w, (answer w).2.calls = w.calls)
    (hcontexts : ∀ w, (answer w).2.contexts = w.contexts) :
    (Atlas.ask (World.request c answer)).Meets (a.Asks made) (fun _ => a.Asks (c :: made))
      fun _ => a.Asks (c :: made) := by
  apply Act.meets_of_left
  intro a' h
  constructor
  · rw [List.cons_append, ← h.calls]
    exact World.calls_request hcalls a'.world
  · rw [← h.contexts]
    exact World.leaves_request (f := World.contexts) (fun _ => rfl) hcontexts a'.world

theorem meets_search (w : Owner) : (Atlas.ask (World.findContext w)).Meets (a.Asks made)
    (fun _ => a.Asks (.findContext :: made))
    fun _ => a.Asks (.findContext :: made) := meets_reading (fun _ => rfl) fun _ => rfl

theorem meets_rootOnce : root.Meets (a.Asks made)
    (fun _ a' => a.Asks made a' ∨ a.Asks (.getContext :: made) a')
    fun _ a' => a.Asks made a' ∨ a.Asks (.getContext :: made) a' := by
  apply Act.meets_get_bind
  intro a₀
  cases a₀.root with
  | some c => exact Act.meets_pure fun _ h => .inl h.1
  | none =>
    have hread : (Atlas.ask (World.getContext rootId)).Meets (fun a' => a.Asks made a' ∧ a' = a₀)
        (fun _ => a.Asks (.getContext :: made)) fun _ a' =>
          a.Asks made a' ∨ a.Asks (.getContext :: made) a' := by
      have hget : (Atlas.ask (World.getContext rootId)).Meets (a.Asks made) _ _ :=
        meets_reading (fun _ => rfl) fun _ => rfl
      exact hget.mono (fun _ h => h.1) (fun _ _ h => h) fun _ _ h => .inr h
    apply hread.bind
    intro found
    cases found with
    | none => exact Act.meets_throw fun _ h => .inr h
    | some r =>
      apply Act.Meets.bind (R := fun _ => a.Asks (.getContext :: made))
      · exact Act.meets_ofExcept (fun _ _ _ h => h) fun _ _ _ h => .inr h
      · intro c
        apply Act.Meets.bind (R := fun _ => a.Asks (.getContext :: made))
        · exact Act.meets_modify fun _ h => ⟨h.calls, h.contexts⟩
        · exact fun _ => Act.meets_pure fun _ h => .inr h

/-- A climb has made searches, at least as many as owners have been passed, and has changed
nothing. -/
def Climbed (a : Atlas) (most passed : Nat) (a' : Atlas) : Prop :=
  ∃ up, Call.Ascending passed most up ∧ a.Asks up a'

variable {most n passed : Nat} {o : Obj}

theorem climbed_of_searches {a' : Atlas} (h : a.Asks (List.replicate n .findContext) a')
    (hpassed : passed ≤ n) (hmost : n ≤ most) : Climbed a most passed a' :=
  ⟨_, .short hpassed hmost, h⟩

theorem climbed_of_root {a' : Atlas} (h : a.Asks (List.replicate n .findContext) a' ∨
    a.Asks (.getContext :: List.replicate n .findContext) a') (hpassed : passed ≤ n)
    (hmost : n ≤ most) : Climbed a most passed a' := by
  rcases h with h | h
  · exact ⟨_, .short hpassed hmost, h⟩
  · exact ⟨_, .full hpassed hmost, h⟩

theorem meets_searchOr {t : Act Atlas Error (Context × List Owner)} (hn : n < most)
    (ht : t.Meets (a.Asks (List.replicate (n + 1) .findContext))
      (fun x => Climbed a most (n + x.2.length)) fun _ => Climbed a most 0) :
    (Atlas.ask (World.findContext (DomainObject.owner o)) >>= fun found => match found with
      | some r => (·, []) <$> Act.ofExcept (Context.ofRecord r)
      | none => t).Meets (a.Asks (List.replicate n .findContext))
      (fun x => Climbed a most (n + x.2.length)) fun _ => Climbed a most 0 := by
  have hsearch : (Atlas.ask (World.findContext (DomainObject.owner o))).Meets
      (a.Asks (List.replicate n .findContext))
      (fun _ => a.Asks (List.replicate (n + 1) .findContext)) fun _ => Climbed a most 0 :=
    (meets_search _).mono (fun _ h => h) (fun _ _ h => h)
      fun _ _ h => climbed_of_searches (n := n + 1) h (Nat.zero_le _) hn
  apply hsearch.bind
  intro found
  cases found with
  | none => exact ht
  | some r =>
    apply Act.Meets.map
    apply Act.meets_ofExcept
    · intro c a' _ h
      exact climbed_of_searches h (Nat.le_succ n) hn
    · intro e a' _ h
      exact climbed_of_searches h (Nat.zero_le _) hn

/-- Whatever the chain of the object is like, a climb makes no more searches than are left. -/
theorem meets_climb (parents : ParentRegistry) (limit left : Nat) (o : Obj) (hn : n + left < most) :
    (climb parents limit left o).Meets (a.Asks (List.replicate n .findContext))
      (fun x => Climbed a most (n + x.2.length)) fun _ => Climbed a most 0 := by
  have htop : ∀ {n : Nat} (o : Obj), n < most →
      ((·, [DomainObject.owner o]) <$> root).Meets
        (a.Asks (List.replicate (n + 1) .findContext))
        (fun x => Climbed a most (n + x.2.length)) fun _ => Climbed a most 0 := by
    intro n o hn
    apply Act.Meets.map
    apply meets_rootOnce.mono (fun _ h => h)
    · intro c a' h
      exact climbed_of_root h (Nat.le_refl _) hn
    · intro e a' h
      exact climbed_of_root h (Nat.zero_le _) hn
  induction left generalizing o n with
  | zero =>
    unfold climb
    apply meets_searchOr hn
    cases parents.parentOf o with
    | none => exact htop o hn
    | some p =>
      exact Act.meets_throw fun a' h => climbed_of_searches h (Nat.zero_le _) hn
  | succ left ih =>
    have hn' : n < most := by omega
    unfold climb
    apply meets_searchOr hn'
    cases parents.parentOf o with
    | none => exact htop o hn'
    | some p =>
      apply Act.Meets.map
      apply (ih (n := n + 1) p (by omega)).mono (fun _ h => h)
      · intro x a' h
        rw [List.length_append, List.length_singleton, ← Nat.add_assoc, Nat.add_right_comm]
        exact h
      · exact fun _ _ h => h

end Up

section Down

/-- The failure is one of the way down: a store has failed, or a path is corrupt. -/
def FailsBelow (e : Error) : Prop := e.isOfStore = true ∨ ∃ id path, e = .corruptPath id path

/-- These creations have been made after the requests before them. -/
def Descended (base : List Call) (most : Nat) (a' : Atlas) : Prop :=
  ∃ down, Call.Descending most down ∧ a'.world.calls = down ++ base

def Tried (base : List Call) (most : Nat) (a' : Atlas) : Prop :=
  ∃ down, Call.Descending most down ∧ a'.world.calls = .createContext :: down ++ base

variable {most : Nat}

theorem Tried.descended {a' : Atlas} (h : Tried base most a') : Descended base (most + 1) a' := by
  obtain ⟨down, hdown, hcalls⟩ := h
  exact ⟨_, .made hdown, hcalls⟩

theorem meets_tryCreate {E : Error → Atlas → Prop} (d : Draft) :
    ((Atlas.onWorld (World.createContext d)).attempt :
      Act Atlas Error (Except StorageError Record)).Meets (Descended base most)
      (fun _ => Tried base most) E := by
  rintro a' ⟨down, hdown, hcalls⟩
  have hnoted := World.calls_createContext d a'.world
  rw [hcalls] at hnoted
  exact ⟨down, hdown, hnoted⟩

theorem meets_searchAfter (w : Owner) : (Atlas.ask (World.findContext w)).Meets (Tried base most)
    (fun _ => Descended base (most + 1))
    fun e a' => FailsBelow e ∧ Descended base (most + 1) a' := by
  apply Atlas.meets_ask
  intro root
  have hleft : (World.findContext w).Meets (fun w => Tried base most ⟨w, root⟩)
      (fun _ w => Descended base (most + 1) ⟨w, root⟩)
      fun _ w => Descended base (most + 1) ⟨w, root⟩ := by
    apply Act.meets_of_left
    rintro v ⟨down, hdown, hcalls⟩
    have hnoted : ((World.findContext w).runFrom v).2.calls = .findContext :: v.calls :=
      World.calls_request (fun _ => rfl) v
    rw [hcalls] at hnoted
    exact ⟨_, .found hdown, hnoted⟩
  exact hleft.mono (fun _ h => h) (fun _ _ h => h) fun _ _ h => ⟨.inl rfl, h⟩

/-- An owner is searched for on the way down only after a creation has been refused. -/
theorem meets_createOrFind_calls (base : List Call) (most : Nat) (d : Draft) :
    (createOrFind d).Meets (Descended base most) (fun _ => Descended base (most + 1))
      fun e a' => FailsBelow e ∧ Descended base (most + 1) a' := by
  apply Act.Meets.bind (meets_tryCreate d)
  intro x
  split
  · exact Act.meets_pure fun _ h => h.descended
  · apply (meets_searchAfter d.owner).bind
    intro found
    cases found with
    | some r => exact Act.meets_pure fun _ h => h
    | none => exact Act.meets_throw fun _ h => ⟨.inl rfl, h⟩
  · exact Act.meets_throw fun a' h => ⟨.inl rfl, h.descended⟩

theorem meets_createChild_calls (base : List Call) (most : Nat) (c : Context) (w : Owner) :
    (createChild c w).Meets (Descended base most) (fun _ => Descended base (most + 1))
      fun e a' => FailsBelow e ∧ Descended base (most + 1) a' := by
  apply (meets_createOrFind_calls base most _).bind
  intro r
  apply Act.Meets.bind (R := fun _ => Descended base (most + 1))
  · apply Act.meets_ofExcept
    · exact fun _ _ _ h => h
    · intro e a' he h
      exact ⟨.inr ⟨_, _, Context.ofRecord_error he⟩, h⟩
  · intro c'
    have hlogged : (Atlas.log (.contextCreated c'.id w.level w.instanceId c'.path) >>= fun _ =>
        pure c').Meets (Descended base (most + 1)) (fun _ => Descended base (most + 1))
        fun e a' => FailsBelow e ∧ Descended base (most + 1) a' := by
      apply Act.Meets.bind (R := fun _ => Descended base (most + 1))
      · exact Act.meets_modify fun _ h => h
      · exact fun _ => Act.meets_pure fun _ h => h
    split
    · apply Act.Meets.bind (R := fun _ => Descended base (most + 1))
      · exact Act.meets_throw fun _ h => ⟨.inr ⟨_, _, rfl⟩, h⟩
      · exact fun _ => hlogged
    · exact hlogged

theorem meets_createChain_calls (base : List Call) (most : Nat) (c : Context) (ws : List Owner) :
    (createChain c ws).Meets (Descended base most) (fun _ => Descended base (most + ws.length))
      fun e a' => FailsBelow e ∧ Descended base (most + ws.length) a' := by
  induction ws generalizing c most with
  | nil => exact Act.meets_pure fun _ h => h
  | cons w ws ih =>
    have hlength : most + (w :: ws).length = most + 1 + ws.length := by
      rw [List.length_cons]
      omega
    rw [hlength, createChain, List.foldlM_cons]
    have hchild : (createChild c w).Meets (Descended base most)
        (fun _ => Descended base (most + 1))
        fun e a' => FailsBelow e ∧ Descended base (most + 1 + ws.length) a' := by
      apply (meets_createChild_calls base most c w).mono (fun _ h => h) (fun _ _ h => h)
      intro e a' h
      obtain ⟨hbelow, down, hdown, hcalls⟩ := h
      exact ⟨hbelow, down, hdown.add ws.length, hcalls⟩
    exact hchild.bind fun c' => ih (most + 1) c'

end Down

/-- What resolving asks for, and that it changes nothing where it fails before it makes anything. -/
theorem meets_object (r : Resolver) (o : Obj) (a : Atlas) : (r.resolve (.object o)).Meets (· = a)
    (fun _ a' => ∃ l, Call.Itinerary (r.maxDepth + 1) l ∧ a'.world.calls = l ++ a.world.calls)
    fun e a' => (FailsBelow e ∨ Climbed a (r.maxDepth + 1) 0 a') ∧
      ∃ l, Call.Itinerary (r.maxDepth + 1) l ∧ a'.world.calls = l ++ a.world.calls := by
  have hup : (climb r.parents r.maxDepth r.maxDepth o).Meets (· = a)
      (fun x => Climbed a (r.maxDepth + 1) x.2.length)
      fun e a' => (FailsBelow e ∨ Climbed a (r.maxDepth + 1) 0 a') ∧
        ∃ l, Call.Itinerary (r.maxDepth + 1) l ∧ a'.world.calls = l ++ a.world.calls := by
    have hroom : 0 + r.maxDepth < r.maxDepth + 1 := by omega
    apply (meets_climb r.parents r.maxDepth r.maxDepth o hroom).mono
    · rintro a' rfl
      exact ⟨rfl, rfl⟩
    · intro x a' h
      rwa [Nat.zero_add] at h
    · intro e a' h
      obtain ⟨up, hup, hasks⟩ := h
      exact ⟨.inr ⟨up, hup, hasks⟩, up, hup.itinerary, hasks.calls⟩
  rw [resolve, resolveWithin_eq]
  apply hup.bind
  rintro ⟨c, ws⟩ a₁ ⟨up, hup, hasks⟩
  have hdown := meets_createChain_calls (up ++ a.world.calls) 0 c ws
  rw [Nat.zero_add] at hdown
  have hall : ∀ a', Descended (up ++ a.world.calls) ws.length a' →
      ∃ l, Call.Itinerary (r.maxDepth + 1) l ∧ a'.world.calls = l ++ a.world.calls := by
    rintro a' ⟨down, hdown, hcalls⟩
    exact ⟨down ++ up, .round hup hdown, by rw [hcalls, List.append_assoc]⟩
  refine hdown.mono (fun _ h => h) (fun _ a' h => hall a' h) (fun e a' h => ?_) a₁
    ⟨[], .start, hasks.calls⟩
  exact ⟨.inl h.1, hall a' h.2⟩

/-- The chain of the object goes on past the limit, and nothing within the limit is stored. -/
structure Overruns (r : Resolver) (s : ContextStore) (o : Obj) : Prop where
  further : r.maxDepth + 1 < (r.parents.chain (r.maxDepth + 2) o).length
  missing : ∀ p ∈ r.parents.chain (r.maxDepth + 1) o, s.find (DomainObject.owner p) = none

end Resolver

namespace ContextStore

variable {Obj : Type} [DomainObject Obj] {s : ContextStore} {top : Except Error Context}
  {missed : Owner → Bool} {parents : ParentRegistry} {limit : Nat}

theorem rootFor_ne_depthExceeded (s : ContextStore) (root : Option Context) :
    s.rootFor root ≠ .error (.depthExceeded limit) := by
  intro h
  unfold rootFor at h
  split at h
  · cases h
  · split at h
    · cases h
    · cases Context.ofRecord_error h

/-- A climb fails for the depth exactly where nothing that it may look at is seen and there is one
more object above. -/
theorem climb_depthExceeded_iff (htop : top ≠ .error (.depthExceeded limit)) (left : Nat)
    (o : Obj) : s.climb top missed parents limit left o = .error (.depthExceeded limit) ↔
      limit < greatestDepth ∧ left + 1 < (parents.chain (left + 2) o).length ∧
        ∀ p ∈ parents.chain (left + 1) o, s.glimpse missed (DomainObject.owner p) = none := by
  induction left, o using @climb_induct Obj _ s missed parents with
  | seen left o r hseen =>
    rw [climb_of_seen hseen, Except.map_eq_error]
    constructor
    · intro h
      cases Context.ofRecord_error h
    · rintro ⟨-, -, hnone⟩
      have hself : o ∈ parents.chain (left + 1) o := List.mem_cons_self ..
      rw [hnone o hself] at hseen
      cases hseen
  | top left o hnone hparent =>
    rw [climb_of_top hnone hparent, Except.map_eq_error, ParentRegistry.chain_of_top hparent]
    constructor
    · exact fun h => absurd h htop
    · rintro ⟨-, hfurther, -⟩
      rw [List.length_singleton] at hfurther
      omega
  | stop o p hnone hparent =>
    have hone : parents.chain 1 o = [o] := by
      rw [ParentRegistry.chain_of_parent hparent, ParentRegistry.chain]
    have htwo : parents.chain 2 o = [o, p] := by
      cases hnext : parents.parentOf p with
      | none => rw [ParentRegistry.chain_of_parent hparent, ParentRegistry.chain_of_top hnext]
      | some q =>
        rw [ParentRegistry.chain_of_parent hparent, ParentRegistry.chain_of_parent hnext,
          ParentRegistry.chain]
    rw [climb_zero hnone hparent, hone, htwo, Except.error.injEq, Error.beyond_eq_depthExceeded]
    simp [hnone]
  | next left o p hnone hparent ih =>
    rw [climb_succ hnone hparent, Except.map_eq_error, ih,
      ParentRegistry.chain_of_parent hparent, ParentRegistry.chain_of_parent hparent,
      List.length_cons, List.forall_mem_cons, Nat.add_lt_add_iff_right]
    simp only [hnone, true_and]

end ContextStore

namespace Resolver

variable {Obj : Type} [DomainObject Obj]

theorem land_depthExceeded_iff {s : ContextStore} {x : Except Error (Context × List Owner)}
    {limit : Nat} : (s.land x).1 = .error (.depthExceeded limit) ↔
      x = .error (.depthExceeded limit) := by
  match x with
  | .error e =>
    show (Except.error e : Except Error Context) = _ ↔ _
    simp
  | .ok (c, ws) =>
    constructor
    · intro h
      rcases ContextStore.descend_error (Prod.ext h rfl) with hstore | ⟨id, path, he⟩
      · cases hstore
      · cases he
    · exact nofun

/-- The limit on the depth is exact, unless it is the greatest one. -/
theorem depthExceeded_iff (r : Resolver) (o : Obj) {a : Atlas} (h : a.world.ahead = .none) :
    ((r.resolve (.object o)).runFrom a).1 = .error (.depthExceeded r.maxDepth) ↔
      r.maxDepth < greatestDepth ∧ r.Overruns a.world.contexts o := by
  have hout := (gives_unmissed r o a (Atlas.shows_self h)).1
  rw [hout, land_depthExceeded_iff, climbOver,
    ContextStore.climb_depthExceeded_iff (a.world.contexts.rootFor_ne_depthExceeded a.root)]
  constructor
  · intro h
    exact ⟨h.1, h.2.1, h.2.2⟩
  · intro h
    exact ⟨h.1, h.2.further, h.2.missing⟩

/-- A failure that is not one of the way down comes before anything has been made. -/
theorem untouched_of_error {r : Resolver} {o : Obj} {a : Atlas} {e : Error}
    (h : ((r.resolve (.object o)).runFrom a).1 = .error e) (he : ¬FailsBelow e) :
    ((r.resolve (.object o)).runFrom a).2.world.contexts = a.world.contexts ∧
      ((r.resolve (.object o)).runFrom a).2.world.callCount .createContext =
        a.world.callCount .createContext := by
  obtain ⟨hbelow | ⟨up, hup, hasks⟩, -⟩ := (meets_object r o a).error rfl (Prod.ext h rfl)
  · exact absurd hbelow he
  · refine ⟨hasks.contexts, ?_⟩
    rw [World.callCount, hasks.calls, List.count_append, List.count_eq_zero_of_not_mem hup.not_mem,
      Nat.zero_add, World.callCount]

/-- Below the greatest limit, resolving an object makes so many requests at most, whatever the chain
of the object is like, and it fails for the depth exactly where the chain overruns the limit. Where it
fails for the depth or for want of a root it has made nothing. -/
theorem resolve_within_limit (r : Resolver) (o : Obj) (a : Atlas) :
    let run := (r.resolve (.object o)).runFrom a
    (r.maxDepth < greatestDepth →
      (∃ l, Call.Itinerary (r.maxDepth + 1) l ∧ l.length ≤ 3 * (r.maxDepth + 1) + 1 ∧
          run.2.world.calls = l ++ a.world.calls) ∧
        (a.world.ahead = .none →
          (run.1 = .error (.depthExceeded r.maxDepth) ↔ r.Overruns a.world.contexts o))) ∧
      ((∃ limit, run.1 = .error (.depthExceeded limit)) ∨
          (∃ message, run.1 = .error (.configuration message)) →
        run.2.world.contexts = a.world.contexts ∧
          run.2.world.callCount .createContext = a.world.callCount .createContext) := by
  intro run
  refine ⟨fun hlimit => ⟨?_, fun hcalm => ?_⟩, ?_⟩
  · have hmade := ((meets_object r o a).mono (fun _ h => h) (fun _ _ h => h)
      fun _ _ h => h.2).left (s := a) rfl
    obtain ⟨l, hl, hcalls⟩ := hmade
    exact ⟨l, hl, hl.length_le, hcalls⟩
  · exact (depthExceeded_iff r o hcalm).trans (and_iff_right hlimit)
  · rintro (⟨limit, hfails⟩ | ⟨message, hfails⟩)
    · apply untouched_of_error hfails
      rintro (h | ⟨id, path, h⟩) <;> cases h
    · apply untouched_of_error hfails
      rintro (h | ⟨id, path, h⟩) <;> cases h

/-- A box that is in a box that is in a box without end, and a desk that has been resolved before:
three boxes are looked for, and none of them is made. -/
theorem resolve_within_limit_boxes : ∃ (r : Resolver)
    (box : Bare fun w => some ⟨w.level, w.instanceId + 1⟩) (a : Atlas),
    r.maxDepth < greatestDepth ∧ a.world.ahead = .none ∧ a.world.contexts.size = 2 ∧
      r.Overruns a.world.contexts box ∧
      ((r.resolve (.object box)).runFrom a).1 = .error (.depthExceeded 2) ∧
      ((r.resolve (.object box)).runFrom a).2.world.contexts = a.world.contexts := by
  let r : Resolver := ⟨.ofList ["box"], 2⟩
  let box : Bare fun w => some ⟨w.level, w.instanceId + 1⟩ := ⟨⟨"box", 1⟩⟩
  let desk : Strand := ⟨⟨"desk", 1⟩, []⟩
  let a : Atlas := ((r.resolve (.object desk)).runFrom ⟨.new, none⟩).2
  have hsmall : r.maxDepth < greatestDepth := by decide
  have hcalm : a.world.ahead = .none := r.ahead_resolve (.object desk) rfl
  have hoverruns : r.Overruns a.world.contexts box := ⟨by decide +kernel, by decide +kernel⟩
  obtain ⟨hlimit, huntouched⟩ := resolve_within_limit r box a
  have hfails := ((hlimit hsmall).2 hcalm).2 hoverruns
  exact ⟨r, box, a, hsmall, hcalm, by decide +kernel, hoverruns, hfails,
    (huntouched (.inl ⟨2, hfails⟩)).1⟩

/-- No depth is beyond the greatest limit. A ring that is its own parent overruns it over a new store,
and yet resolving the ring does not fail for the depth. -/
theorem greatest_limit_overrun : ∃ (r : Resolver) (ring : Bare some),
    let a : Atlas := ⟨.new, none⟩
    r.maxDepth = greatestDepth ∧ r.parents.parentOf ring = some ring ∧ a.world.ahead = .none ∧
      r.Overruns a.world.contexts ring ∧
      ((r.resolve (.object ring)).runFrom a).1 ≠ .error (.depthExceeded r.maxDepth) := by
  let r : Resolver := ⟨.ofList ["ring"], greatestDepth⟩
  let ring : Bare some := ⟨⟨"ring", 1⟩⟩
  have hdeclared : r.parents.kinds.contains "ring" = true := by decide +kernel
  have hself : r.parents.parentOf ring = some ring := if_pos hdeclared
  refine ⟨r, ring, rfl, hself, rfl, ⟨?_, fun p _ => rfl⟩, fun hfails => ?_⟩
  · rw [ParentRegistry.chain_of_self hself, List.length_replicate]
    exact Nat.lt_succ_self _
  · exact absurd ((depthExceeded_iff r ring rfl).1 hfails).1 (Nat.lt_irrefl _)

end Resolver

end Clearance
