import Clearance.Proofs.Context.Gains
import Clearance.Proofs.Object
import Clearance.Proofs.Resolver.Newcomers
import Clearance.Proofs.Resolver.Reached

/-! What resolvers announce. Each record that they create is announced once, and in the order of the
creations. Besides, a resolver that has lost a race announces the record that it finds, although it
has created nothing. -/
namespace Clearance

open ContextStore (capacity create_eq_ok get_created get_of_create)

/-- A context that a resolver says it has created. The announcement is late if the record was there
before. -/
structure Announcement where
  record : Record
  owner : Owner
  owned : record.owner? = some owner
  late : Bool

namespace Announcement

def event (x : Announcement) : Event :=
  .contextCreated x.record.id x.owner.level x.owner.instanceId x.record.path

/-- The records of the announcements that are not late. -/
def made (l : List Announcement) : List Record := (l.filter (!·.late)).map record

def lateCount (l : List Announcement) : Nat := l.countP (·.late)

theorem lateCount_append (l l' : List Announcement) :
    lateCount (l ++ l') = lateCount l + lateCount l' := List.countP_append

end Announcement

/-- The announcements lead from one store to the other: each record is created below a stored one
when it is announced, but a late one is found. -/
inductive ContextStore.Told (s : ContextStore) : List Announcement → ContextStore → Prop
  | start : ContextStore.Told s [] s
  | made {l : List Announcement} {t t' : ContextStore} {x : Announcement} {p : Record} :
      ContextStore.Told s l t → x.late = false → t.get p.id = some p →
      t.create (.below p x.owner) = .ok (x.record, t') → ContextStore.Told s (l ++ [x]) t'
  | found {l : List Announcement} {t : ContextStore} {x : Announcement} :
      ContextStore.Told s l t → x.late = true → t.find x.owner = some x.record →
      ContextStore.Told s (l ++ [x]) t

namespace ContextStore.Told

variable {s t u : ContextStore} {l l' : List Announcement}

theorem trans (h : s.Told l t) (h' : t.Told l' u) : s.Told (l ++ l') u := by
  induction h' with
  | start =>
    rw [List.append_nil]
    exact h
  | made _ hnew hp hcreate ih =>
    rw [← List.append_assoc]
    exact .made ih hnew hp hcreate
  | found _ hlate hfind ih =>
    rw [← List.append_assoc]
    exact .found ih hlate hfind

theorem size_le (h : s.Told l t) : s.size ≤ t.size := by
  induction h with
  | start => exact Nat.le_refl _
  | made _ _ _ hcreate ih => exact Nat.le_trans ih (size_le_of_create hcreate)
  | found _ _ _ ih => exact ih

/-- The announcements that are not late are of the records that have been added, in the order of
their numbers. -/
theorem gains (h : s.Told l t) (hs : s.Rooted Atlas.anywhere) (room : t.size < capacity) :
    t.Rooted Atlas.anywhere ∧ s.Gains (Announcement.made l) t ∧
      (Announcement.made l).map Record.id = Id.row s.nextId (Announcement.made l).length := by
  induction h with
  | start => exact ⟨hs, .refl s, rfl⟩
  | @made l t t' x p h hnew hp hcreate ih =>
    have hbefore := Nat.lt_of_le_of_lt (size_le_of_create hcreate) room
    obtain ⟨ht, hgains, hids⟩ := ih hbefore
    have ht' := ht.create hcreate room hp trivial
    have hmade : Announcement.made (l ++ [x]) = Announcement.made l ++ [x.record] := by
      simp [Announcement.made, hnew]
    rw [hmade]
    refine ⟨ht', hgains.trans (ht.gains_of_create ht' hcreate hbefore), ?_⟩
    rw [List.map_append, hids, List.length_append, List.length_singleton, Id.row_succ,
      ← hgains.next, ← id_of_create hcreate]
    rfl
  | @found l t x h hlate hfind ih =>
    have hmade : Announcement.made (l ++ [x]) = Announcement.made l := by
      simp [Announcement.made, hlate]
    rw [hmade]
    exact ih room

end ContextStore.Told

/-- How many of the searches so far see nothing by the present disruption. -/
def World.missed (w : World) : Nat := (List.range w.searches).countP w.disruption.unseen

theorem World.missed_search (w : World) : missed { w with searches := w.searches + 1 } =
    w.missed + if w.disruption.unseen w.searches then 1 else 0 := by
  simp [missed, List.range_succ, List.countP_append, List.countP_singleton]

namespace Resolver

section Up

/-- A climb from `a` leaves the contexts and the events alone, and has missed `n` searches. -/
structure Seeks (a : Atlas) (n : Nat) (a' : Atlas) : Prop where
  contexts : a'.world.contexts = a.world.contexts
  events : a'.world.events = a.world.events
  unseen : a'.world.disruption.unseen = a.world.disruption.unseen
  missed : a.world.missed + n ≤ a'.world.missed

theorem Seeks.le {a a' : Atlas} {n m : Nat} (h : Seeks a n a') (hle : m ≤ n) : Seeks a m a' :=
  { h with missed := Nat.le_trans (Nat.add_le_add_left hle _) h.missed }

variable {a : Atlas} {n : Nat}

def storedCount (s : ContextStore) (ws : List Owner) : Nat := ws.countP fun w => (s.find w).isSome

theorem seeks_find (w : Owner) : (Atlas.ask (World.findContext w)).Meets (Seeks a n)
    (fun found => Seeks a (n + if found = none then storedCount a.world.contexts [w] else 0))
    fun _ => Seeks a n := by
  refine Atlas.meets_ask fun root => World.meets_request (fun w e h => ?_) fun v h => ?_
  · exact ⟨h.contexts, h.events, h.unseen, h.missed⟩
  · have hbound : a.world.missed + n ≤ v.missed := h.missed
    have hcontexts : v.contexts = a.world.contexts := h.contexts
    have hmissed := World.missed_search (v.noting .findContext)
    refine ⟨h.contexts, h.events, h.unseen, Nat.le_trans ?_ (Nat.le_of_eq hmissed.symm)⟩
    show a.world.missed + (n + if (if v.disruption.unseen v.searches = true then none
      else v.contexts.find w) = none then storedCount a.world.contexts [w] else 0) ≤
        v.missed + if v.disruption.unseen v.searches = true then 1 else 0
    by_cases hunseen : v.disruption.unseen v.searches = true
    · have hone : storedCount a.world.contexts [w] ≤ 1 := List.countP_le_length
      simp only [hunseen, if_true]
      omega
    · rw [if_neg hunseen, if_neg hunseen, hcontexts]
      split
      · next hnone =>
        have hzero : storedCount a.world.contexts [w] = 0 := by simp [storedCount, hnone]
        omega
      · omega

theorem seeks_root : root.Keeps (Seeks a n) := by
  have hget : (Atlas.ask (World.getContext rootId)).Keeps (Seeks a n) := by
    refine Act.Meets.keeps (Q := fun _ => Seeks a n) (E := fun _ => Seeks a n)
      (Atlas.meets_ask fun root => World.meets_request (fun w e h => ?_) fun w h => ?_)
      (fun _ _ h => h) fun _ _ h => h
    · exact ⟨h.contexts, h.events, h.unseen, h.missed⟩
    · exact ⟨h.contexts, h.events, h.unseen, h.missed⟩
  exact root_of Act.keeps_ofExcept Act.Keeps.bind (fun _ h => h) hget
    fun c => Act.keeps_modify fun _ h => ⟨h.contexts, h.events, h.unseen, h.missed⟩

variable {Obj : Type} [DomainObject Obj]

/-- Each stored owner that a climb passes has been missed. -/
theorem seeks_climb (parents : ParentRegistry) (limit left : Nat) (o : Obj) :
    (climb parents limit left o).Meets (Seeks a n)
      (fun x => Seeks a (n + storedCount a.world.contexts x.2)) fun _ => Seeks a n := by
  have htop : ∀ (n : Nat) (o : Obj), ((·, [DomainObject.owner o]) <$> root).Meets
      (Seeks a (n + storedCount a.world.contexts [DomainObject.owner o]))
      (fun x => Seeks a (n + storedCount a.world.contexts x.2)) fun _ => Seeks a n := by
    intro n o
    apply Act.Meets.map
    exact seeks_root.meets.mono (fun _ h => h) (fun _ _ h => h)
      fun _ _ h => h.le (Nat.le_add_right _ _)
  have hfound : ∀ (n : Nat) (r : Record),
      ((·, []) <$> Act.ofExcept (Context.ofRecord r)).Meets (Seeks a n)
      (fun x => Seeks a (n + storedCount a.world.contexts x.2)) fun _ => Seeks a n := by
    intro n r
    apply Act.Meets.map
    exact (Act.keeps_ofExcept _).meets
  induction left generalizing o n with
  | zero =>
    unfold climb
    refine (seeks_find _).bind fun found => ?_
    cases found with
    | some r => exact hfound n r
    | none =>
      cases parents.parentOf o with
      | none => exact htop n o
      | some p => exact Act.meets_throw fun _ h => h.le (Nat.le_add_right _ _)
  | succ left ih =>
    unfold climb
    refine (seeks_find _).bind fun found => ?_
    cases found with
    | some r => exact hfound n r
    | none =>
      cases parents.parentOf o with
      | none => exact htop n o
      | some p =>
        apply Act.Meets.map
        refine ((ih p).mono (fun _ h => h) (fun x _ h => h.le ?_)
          fun _ _ h => h.le (Nat.le_add_right _ _))
        simp only [storedCount, List.countP_append, if_true]
        omega

theorem holds_climb {base : ContextStore} (parents : ParentRegistry) (limit left : Nat) (o : Obj) :
    (climb parents limit left o).Meets (Atlas.Growing Atlas.anywhere base fun _ => True)
      (fun x => Atlas.Growing Atlas.anywhere base fun s => s.get x.1.id = some x.1.record)
      fun _ => Atlas.Growing Atlas.anywhere base fun _ => True := by
  have htop : ∀ o : Obj, ((·, [DomainObject.owner o]) <$> root).Meets
      (Atlas.Growing Atlas.anywhere base fun _ => True)
      (fun x => Atlas.Growing Atlas.anywhere base fun s => s.get x.1.id = some x.1.record)
      fun _ => Atlas.Growing Atlas.anywhere base fun _ => True := by
    intro o
    apply Act.Meets.map
    exact meets_root.mono (fun _ h => h) (fun _ _ h room => ⟨(h room).1, (h room).2.1⟩)
      fun _ _ h => h
  have hfind : ∀ w : Owner, (Atlas.ask (World.findContext w)).Meets
      (Atlas.Growing Atlas.anywhere base fun _ => True)
      (fun found => Atlas.Growing Atlas.anywhere base fun s =>
        ∀ r, found = some r → s.get r.id = some r)
      fun _ => Atlas.Growing Atlas.anywhere base fun _ => True := fun w =>
    (meets_find w).mono (fun _ h => h)
      (fun _ _ h room => ⟨(h room).1, fun r hr => ((h room).2.2 r hr).1⟩) fun _ _ h => h
  have hfound : ∀ r : Record,
      ((·, ([] : List Owner)) <$> Act.ofExcept (Context.ofRecord r)).Meets
      (Atlas.Growing Atlas.anywhere base fun s => ∀ r', some r = some r' → s.get r'.id = some r')
      (fun x => Atlas.Growing Atlas.anywhere base fun s => s.get x.1.id = some x.1.record)
      fun _ => Atlas.Growing Atlas.anywhere base fun _ => True := by
    intro r
    apply Act.Meets.map
    refine Act.meets_ofExcept (fun c s hc h room => ?_) fun _ _ _ h room => ⟨(h room).1, trivial⟩
    rw [Context.id, Context.record_of_ofRecord hc]
    exact ⟨(h room).1, (h room).2 r rfl⟩
  have hnone : ∀ {t : Act Atlas Error (Context × List Owner)}
      {Q : Context × List Owner → Atlas → Prop} {E : Error → Atlas → Prop},
      t.Meets (Atlas.Growing Atlas.anywhere base fun _ => True) Q E →
      t.Meets (Atlas.Growing Atlas.anywhere base fun s =>
        ∀ r : Record, none = some r → s.get r.id = some r) Q E :=
    fun h => h.mono (fun _ h room => ⟨(h room).1, trivial⟩) (fun _ _ h => h) fun _ _ h => h
  induction left generalizing o with
  | zero =>
    unfold climb
    refine (hfind _).bind fun found => ?_
    cases found with
    | some r => exact hfound r
    | none =>
      refine hnone ?_
      cases parents.parentOf o with
      | none => exact htop o
      | some p => exact Act.meets_throw fun _ h => h
  | succ left ih =>
    unfold climb
    refine (hfind _).bind fun found => ?_
    cases found with
    | some r => exact hfound r
    | none =>
      refine hnone ?_
      cases parents.parentOf o with
      | none => exact htop o
      | some p =>
        apply Act.Meets.map
        exact ih p

end Up

section Down

variable {a : Atlas} {n : Nat}

theorem leaves_events_createOrFind (d : Draft) :
    (createOrFind d).Leaves fun a => a.world.events := by
  have hfind : ∀ w, (World.findContext w).Leaves World.events := fun w =>
    World.leaves_request (fun _ => rfl) fun _ => rfl
  have hcreate : (World.createContext d).Leaves World.events := by
    refine World.leaves_request (fun _ => rfl) fun w => ?_
    cases w.disruption.imposed with
    | some r => rfl
    | none => cases w.contexts.create d <;> rfl
  have hcreate' : (Atlas.onWorld (World.createContext d)).Leaves fun a => a.world.events :=
    fun a => hcreate a.world
  exact createOrFind_of Act.leaves_ofExcept Act.Leaves.bind (fun w a => hfind w a.world) d
    hcreate'.attempt

/-- A record is created, or it is found, and otherwise nothing changes. -/
theorem meets_createOrFind_from (d : Draft) (himposed : a.world.disruption.imposed = none) :
    (createOrFind d).Meets (· = a)
      (fun r a' => a.world.contexts.create d = .ok (r, a'.world.contexts) ∨
        a'.world.contexts = a.world.contexts ∧ a.world.contexts.find d.owner = some r)
      fun _ a' => a'.world.contexts = a.world.contexts := by
  let I (k : Stock) : Prop := k.contexts = a.world.contexts ∧ k.imposed = none
  let J (r : Record) (k : Stock) : Prop := a.world.contexts.create d = .ok (r, k.contexts)
  have hcreate : (Atlas.onWorld (World.createContext d)).Meets (· = a)
      (fun r a' => J r a'.world.stock) fun _ a' => I a'.world.stock :=
    Atlas.meets_onWorld fun root => (World.meets_createContext (I := I) (J := J)
      (fun k r h hr => by cases h.2.symm.trans hr)
      (fun k r contexts h _ hc => by rw [h.1] at hc; exact hc)).mono
      (fun w hw => by cases hw; exact ⟨rfl, himposed⟩) (fun _ _ h => h) fun _ _ h => h
  let R (x : Except StorageError Record) (a' : Atlas) : Prop := match x with
    | .ok r => J r a'.world.stock
    | .error _ => I a'.world.stock
  have htry : ((Atlas.onWorld (World.createContext d)).attempt :
      Act Atlas Error (Except StorageError Record)).Meets (· = a) R
      fun _ a' => a'.world.contexts = a.world.contexts := Act.Meets.attempt (Q := R) hcreate
  refine htry.bind fun x => ?_
  split
  · exact Act.meets_pure fun _ h => .inl h
  · have hfind : (Atlas.ask (World.findContext d.owner)).Meets (fun a' => I a'.world.stock)
        (fun found a' => I a'.world.stock ∧
          ∀ r, found = some r → a'.world.contexts.find d.owner = some r)
        fun _ a' => I a'.world.stock :=
      Atlas.meets_ask fun _ => World.meets_findContext (I := I) d.owner
    refine (hfind.mono (fun _ h => h) (fun _ _ h => h) fun _ _ h => h.1).bind fun found => ?_
    cases found with
    | some r =>
      refine Act.meets_pure fun a' h => ?_
      have hcontexts : a'.world.contexts = a.world.contexts := h.1.1
      rw [← hcontexts]
      exact .inr ⟨rfl, h.2 r rfl⟩
    | none => exact Act.meets_throw fun _ h => h.1.1
  · exact Act.meets_throw fun _ h => h.1

/-- A child is announced where it has come out; a record that is created in vain is not a child of
the context. -/
theorem meets_createChild_from (c : Context) (w : Owner)
    (himposed : a.world.disruption.imposed = none) : (createChild c w).Meets (· = a)
      (fun c' a' => c'.record.parent = some c.id ∧
        a'.world.events.toList = a.world.events.toList ++
          [.contextCreated c'.id w.level w.instanceId c'.path] ∧
        (a.world.contexts.create (.below c.record w) = .ok (c'.record, a'.world.contexts) ∨
          a'.world.contexts = a.world.contexts ∧ a.world.contexts.find w = some c'.record))
      fun _ a' => a'.world.events = a.world.events ∧ (a'.world.contexts = a.world.contexts ∨
        ∃ r, a.world.contexts.create (.below c.record w) = .ok (r, a'.world.contexts) ∧
          ∀ c', Context.ofRecord r = .ok c' → c'.record.parent ≠ some c.id) := by
  let R (r : Record) (a' : Atlas) : Prop := a'.world.events = a.world.events ∧
    (a.world.contexts.create (.below c.record w) = .ok (r, a'.world.contexts) ∨
      a'.world.contexts = a.world.contexts ∧ a.world.contexts.find w = some r)
  have hrecord : (createOrFind (.below c.record w)).Meets (· = a) R
      fun _ a' => a'.world.events = a.world.events ∧ a'.world.contexts = a.world.contexts := by
    refine ((meets_createOrFind_from (.below c.record w) himposed).and_keeps
      (I := fun a' => a'.world.events = a.world.events) fun a' h => ?_).mono
      (fun _ h => ⟨h, h ▸ rfl⟩) (fun _ _ h => ⟨h.2, h.1⟩) fun _ _ h => ⟨h.2, h.1⟩
    exact (leaves_events_createOrFind _ a').trans h
  -- Where the record is no child, it has been found, or it has been created in vain.
  have hvain : ∀ {r : Record} {a' : Atlas}, R r a' →
      (∀ c', Context.ofRecord r = .ok c' → c'.record.parent ≠ some c.id) →
      a'.world.events = a.world.events ∧ (a'.world.contexts = a.world.contexts ∨
        ∃ r, a.world.contexts.create (.below c.record w) = .ok (r, a'.world.contexts) ∧
          ∀ c', Context.ofRecord r = .ok c' → c'.record.parent ≠ some c.id) := by
    rintro r a' ⟨hevents, hcreate | ⟨hcontexts, -⟩⟩ hno
    · exact ⟨hevents, .inr ⟨r, hcreate, hno⟩⟩
    · exact ⟨hevents, .inl hcontexts⟩
  refine (hrecord.mono (fun _ h => h) (fun _ _ h => h) fun _ _ h => ⟨h.1, .inl h.2⟩).bind
    fun r => ?_
  refine Act.Meets.bind (R := fun c' a' => Context.ofRecord r = .ok c' ∧ R r a')
    (Act.meets_ofExcept (fun c' a' hc h => ⟨hc, h⟩) fun e a' he h => hvain h ?_) fun c' => ?_
  · intro c' hc
    cases he.symm.trans hc
  · split
    · next hparent =>
      refine Act.Meets.bind (R := fun _ _ => False) (Act.meets_throw fun a' h => hvain h.2 ?_)
        fun _ _ h => h.elim
      intro c'' hc
      cases h.1.symm.trans hc
      exact hparent
    · next hparent =>
      refine Act.Meets.bind (R := fun _ a' => c'.record.parent = some c.id ∧
        a'.world.events.toList = a.world.events.toList ++
          [.contextCreated c'.id w.level w.instanceId c'.path] ∧
        (a.world.contexts.create (.below c.record w) = .ok (c'.record, a'.world.contexts) ∨
          a'.world.contexts = a.world.contexts ∧ a.world.contexts.find w = some c'.record))
        (Act.meets_modify fun a' h => ⟨Decidable.not_not.1 hparent, ?_, ?_⟩)
        fun _ => Act.meets_pure fun _ h => h
      · show (a'.world.events.push _).toList = _
        rw [Array.toList_push, h.2.1]
      · rw [Context.record_of_ofRecord h.1]
        exact h.2.2

/-- Since `w`, these contexts have been announced, at most `n` of them late. -/
structure Announced (w : World) (n : Nat) (l : List Announcement) (w' : World) : Prop where
  events : w'.events.toList = w.events.toList ++ l.map Announcement.event
  told : w.contexts.Told l w'.contexts
  late : Announcement.lateCount l ≤ n

theorem Announced.le {w w' : World} {n m : Nat} {l : List Announcement}
    (h : Announced w n l w') (hle : n ≤ m) : Announced w m l w' :=
  { h with late := Nat.le_trans h.late hle }

/-- On the way down from what was there at `w`: the context that has been reached is stored, and
nothing that is new stands deeper. -/
structure Lowered (w : World) (n : Nat) (l : List Announcement) (c : Context) (a : Atlas) :
    Prop where
  grown : a.world.stock.Grown Atlas.anywhere w.contexts a.root
  holds : a.world.contexts.get c.id = some c.record
  announced : Announced w n l a.world
  depth : ∀ r, a.world.contexts.get r.id = some r → w.contexts.get r.id = none →
    r.depth ≤ c.record.depth

variable {w : World} {l : List Announcement} {c c' : Context} {v : Owner} {a' : Atlas}

theorem depth_of_parent {s : ContextStore} (hs : s.Rooted Atlas.anywhere) {r : Record}
    (hget : s.get r.id = some r) (hc : s.get c.id = some c.record)
    (hparent : r.parent = some c.id) : r.depth = c.record.depth + 1 := by
  have hid : r.id ≠ rootId := by
    intro hid
    rw [hid, hs.root] at hget
    cases hget
    cases hparent
  obtain ⟨p, o, hp, -, -, hr⟩ := hs.placed hget hid
  rw [hr] at hparent ⊢
  have hpid : p.id = c.id := Option.some.inj hparent
  rw [hpid] at hp
  cases hp.symm.trans hc
  rfl

theorem Lowered.create (h : Lowered w n l c a)
    (hgrown : a'.world.stock.Grown Atlas.anywhere w.contexts a'.root)
    (hevents : a'.world.events.toList = a.world.events.toList ++
      [.contextCreated c'.id v.level v.instanceId c'.path])
    (hcreate : a.world.contexts.create (.below c.record v) = .ok (c'.record, a'.world.contexts)) :
    ∃ l', Lowered w n l' c' a' := by
  obtain ⟨hget, howner⟩ := get_created hcreate
  let x : Announcement := ⟨c'.record, v, howner, false⟩
  obtain ⟨-, hr, -, -, -⟩ := create_eq_ok hcreate
  have hdepth : c'.record.depth = c.record.depth + 1 := congrArg Record.depth hr
  refine ⟨l ++ [x], hgrown, hget, ⟨?_, ?_, ?_⟩, fun r hr hnew => ?_⟩
  · rw [hevents, h.announced.events, List.map_append, List.append_assoc]
    rfl
  · exact .made h.announced.told rfl h.holds hcreate
  · rw [Announcement.lateCount_append]
    exact h.announced.late
  · rw [get_of_create hcreate] at hr
    split at hr
    · cases hr
      exact Nat.le_refl _
    · have := h.depth r hr hnew
      omega

/-- The context was there: had it been made on the way down, it could not stand deeper than its
parent. -/
theorem Lowered.find (hw : w.contexts.Rooted Atlas.anywhere) (h : Lowered w n l c a)
    (hgrown : a'.world.stock.Grown Atlas.anywhere w.contexts a'.root)
    (hevents : a'.world.events.toList = a.world.events.toList ++
      [.contextCreated c'.id v.level v.instanceId c'.path])
    (hcontexts : a'.world.contexts = a.world.contexts)
    (hfind : a.world.contexts.find v = some c'.record)
    (hparent : c'.record.parent = some c.id) :
    ∃ l', Lowered w (n + storedCount w.contexts [v]) l' c' a' := by
  have hrooted : a.world.contexts.Rooted Atlas.anywhere := h.grown.rooted
  obtain ⟨hget, howner⟩ := hrooted.get_of_find hfind
  have hdepth := depth_of_parent hrooted hget h.holds hparent
  let x : Announcement := ⟨c'.record, v, howner, true⟩
  have hstored : storedCount w.contexts [v] = 1 := by
    cases hold : w.contexts.get c'.record.id with
    | none =>
      have := h.depth c'.record hget hold
      omega
    | some r =>
      have hsame : a.world.contexts.get c'.record.id = some r := h.grown.kept _ _ hold
      cases hget.symm.trans hsame
      simp [storedCount, hw.find_of_get hold howner]
  refine ⟨l ++ [x], hgrown, ?_, ⟨?_, ?_, ?_⟩, fun r hr hnew => ?_⟩
  · rw [hcontexts]
    exact hget
  · rw [hevents, h.announced.events, List.map_append, List.append_assoc]
    rfl
  · rw [hcontexts]
    exact .found h.announced.told rfl hfind
  · have hlate : Announcement.lateCount [x] = 1 := rfl
    rw [Announcement.lateCount_append, hlate, hstored]
    exact Nat.add_le_add_right h.announced.late 1
  · rw [hcontexts] at hr
    have := h.depth r hr hnew
    omega

theorem size_le_createChild (c : Context) (v : Owner) (a : Atlas) :
    a.world.contexts.size ≤ ((createChild c v).runFrom a).2.world.contexts.size := by
  let I (_ : Option Context) (k : Stock) : Prop := a.world.contexts.size ≤ k.contexts.size
  have hsteps := keeps_steps (I := I) (fun _ _ h _ => h) (fun _ _ _ h _ => h)
    fun _ _ _ _ _ h _ hc => Nat.le_trans h (ContextStore.size_le_of_create hc)
  exact hsteps.stages.course.createChild c v a (Nat.le_refl _)

theorem meets_createChild_lowered (hw : w.contexts.Rooted Atlas.anywhere) (n : Nat) (c : Context)
    (v : Owner) : (createChild c v).Meets
      (fun a => a.world.contexts.size < capacity → ∃ l, Lowered w n l c a)
      (fun c' a => a.world.contexts.size < capacity →
        ∃ l, Lowered w (n + storedCount w.contexts [v]) l c' a)
      fun _ a => a.world.contexts.size < capacity → ∃ l, Announced w n l a.world := by
  intro a h
  by_cases room : a.world.contexts.size < capacity
  · obtain ⟨l, hl⟩ := h room
    have hgrowing : a.Growing Atlas.anywhere w.contexts (c.StandsFor c.record.owner?) :=
      fun _ => ⟨hl.grown, hl.holds, rfl⟩
    have hgrows : (createChild c v).Meets
        (Atlas.Growing Atlas.anywhere w.contexts (c.StandsFor c.record.owner?))
        (fun c' => Atlas.Growing Atlas.anywhere w.contexts (c'.StandsFor (some v)))
        fun _ => Atlas.Growing Atlas.anywhere w.contexts fun _ => True := meets_createChild trivial
    have hboth := (meets_createChild_from c v hl.grown.imposed).and hgrows
    refine (hboth.mono (fun _ h => h) ?_ ?_) a ⟨rfl, hgrowing⟩
    · rintro c' a' ⟨⟨hparent, hevents, hcreate | ⟨hcontexts, hfind⟩⟩, hgrown⟩ room'
      · obtain ⟨l', hl'⟩ := hl.create (hgrown room').1 hevents hcreate
        exact ⟨l', { hl' with announced := hl'.announced.le (Nat.le_add_right _ _) }⟩
      · exact hl.find hw (hgrown room').1 hevents hcontexts hfind hparent
    · rintro e a' ⟨⟨hevents, hcontexts | ⟨r, hcreate, hvain⟩⟩, hgrown⟩ room'
      · refine ⟨l, ?_, ?_, hl.announced.late⟩
        · rw [hevents]
          exact hl.announced.events
        · rw [hcontexts]
          exact hl.announced.told
      · -- a record that is created in a tree is valid and a child
        obtain ⟨c', hc, -⟩ := (hgrown room').1.rooted.exists_context (get_created hcreate).1
        obtain ⟨-, hr, -, -, -⟩ := create_eq_ok hcreate
        refine absurd ?_ (hvain c' hc)
        rw [Context.record_of_ofRecord hc, hr]
        rfl
  · have hfull : ∀ {Q : Prop}, ((createChild c v).runFrom a).2.world.contexts.size < capacity → Q :=
      fun room' => absurd (Nat.lt_of_le_of_lt (size_le_createChild c v a) room') room
    generalize (createChild c v).runFrom a = x at hfull
    match x with
    | (.ok _, _) | (.error _, _) => exact hfull

/-- The way down announces what it makes, and what it finds if that was there at first. -/
theorem meets_createChain_announced (hw : w.contexts.Rooted Atlas.anywhere) (n : Nat) (c : Context)
    (ws : List Owner) : (createChain c ws).Meets
      (fun a => a.world.contexts.size < capacity → ∃ l, Lowered w n l c a)
      (fun _ a => a.world.contexts.size < capacity →
        ∃ l, Announced w (n + storedCount w.contexts ws) l a.world)
      fun _ a => a.world.contexts.size < capacity →
        ∃ l, Announced w (n + storedCount w.contexts ws) l a.world := by
  induction ws generalizing n c with
  | nil =>
    refine Act.meets_pure fun a h room => ?_
    obtain ⟨l, hl⟩ := h room
    exact ⟨l, hl.announced⟩
  | cons v ws ih =>
    have hcount : storedCount w.contexts (v :: ws) =
        storedCount w.contexts [v] + storedCount w.contexts ws := by
      rw [← List.singleton_append]
      exact List.countP_append
    rw [createChain, List.foldlM_cons, hcount, ← Nat.add_assoc]
    refine ((meets_createChild_lowered hw n c v).mono (fun _ h => h) (fun _ _ h => h)
      fun _ _ h room => ?_).bind fun c' => ih _ c'
    obtain ⟨l, hl⟩ := h room
    exact ⟨l, hl.le (by omega)⟩

end Down

section Whole

theorem keeps_missed (unseen : Nat → Bool) (n : Nat) : Steps fun t => t.Keeps fun a =>
    a.world.disruption.unseen = unseen ∧ n ≤ a.world.missed := by
  let I (w : World) : Prop := w.disruption.unseen = unseen ∧ n ≤ w.missed
  have hget : (World.getContext rootId).Keeps I :=
    World.keeps_request (fun _ h => h) fun _ h => h
  have hfind : ∀ o, (World.findContext o).Keeps I := fun o =>
    World.keeps_request (fun _ h => h) fun w h =>
      ⟨h.1, Nat.le_trans h.2 (Nat.le_trans (Nat.le_add_right _ _)
        (Nat.le_of_eq w.missed_search.symm))⟩
  have hcreate : ∀ d, (World.createContext d).Keeps I := by
    refine fun d => World.keeps_request (fun _ h => h) fun w h => ?_
    cases w.disruption.imposed with
    | some r => exact h
    | none =>
      cases w.contexts.create d with
      | ok x => exact h
      | error e => exact h
  exact {
    ofExcept := Act.keeps_ofExcept
    bind := Act.Keeps.bind
    root := root_of Act.keeps_ofExcept Act.Keeps.bind (fun _ h => h) (fun a => hget a.world)
      fun _ => Act.keeps_modify fun _ h => h
    find := fun o a => hfind o a.world
    create := fun d => Act.Keeps.attempt fun a => hcreate d a.world
    log := fun _ => Act.keeps_modify fun _ h => h }

theorem Course.createChain {P : ∀ {α : Type}, Act Atlas Error α → Prop} (h : Course P)
    (c : Context) (ws : List Owner) : P (createChain c ws) := by
  induction ws generalizing c with
  | nil => exact h.pure c
  | cons w ws ih => exact h.bind (h.createChild c w) ih

variable {Obj : Type} [DomainObject Obj] {a a' : Atlas} {n : Nat}

theorem Seeks.refl (a : Atlas) : Seeks a 0 a := ⟨rfl, rfl, rfl, Nat.le_refl _⟩

theorem Seeks.announced (h : Seeks a n a') :
    Announced a.world (a'.world.missed - a.world.missed) [] a'.world where
  events := by rw [h.events, List.map_nil, List.append_nil]
  told := by
    rw [h.contexts]
    exact .start
  late := Nat.zero_le _

/-- What is announced by one call, over a tree. -/
theorem announced_resolve (r : Resolver) (subject : Subject Obj)
    (h : a.Growing Atlas.anywhere a.world.contexts fun _ => True)
    (room : ((r.resolve subject).runFrom a).2.world.contexts.size < capacity) :
    ∃ l, Announced a.world (((r.resolve subject).runFrom a).2.world.missed - a.world.missed) l
      ((r.resolve subject).runFrom a).2.world := by
  cases subject with
  | root | kind k => exact ⟨[], (seeks_root a (Seeks.refl a)).announced⟩
  | context c => exact ⟨[], (Seeks.refl a).announced⟩
  | object o =>
    have hbefore := Nat.lt_of_le_of_lt (r.size_le_resolve (.object o) a) room
    have hw : a.world.contexts.Rooted Atlas.anywhere := (h hbefore).1.rooted
    let J (a' : Atlas) : Prop := a'.world.contexts.size < capacity →
      ∃ l, Announced a.world (a'.world.missed - a.world.missed) l a'.world
    have hholds : (climb r.parents r.maxDepth r.maxDepth o).Meets
        (Atlas.Growing Atlas.anywhere a.world.contexts fun _ => True)
        (fun x => Atlas.Growing Atlas.anywhere a.world.contexts fun s =>
          s.get x.1.id = some x.1.record)
        fun _ => Atlas.Growing Atlas.anywhere a.world.contexts fun _ => True :=
      holds_climb r.parents r.maxDepth r.maxDepth o
    have hclimb := (seeks_climb (a := a) (n := 0) r.parents r.maxDepth r.maxDepth o).and hholds
    have hall : (r.resolve (.object o)).Meets (· = a) (fun _ => J) fun _ => J := by
      rw [resolve, resolveWithin_eq]
      refine Act.Meets.bind (hclimb.mono ?_ (fun _ _ h => h)
        fun e a' h _ => ⟨[], h.1.announced⟩) fun x => ?_
      · rintro _ rfl
        exact ⟨Seeks.refl _, h⟩
      have hmissed := (keeps_missed a.world.disruption.unseen
        (a.world.missed + storedCount a.world.contexts x.2)).stages.course.createChain x.1 x.2
      have hchain := (meets_createChain_announced hw 0 x.1 x.2).and_keeps hmissed
      refine hchain.mono ?_ ?_ ?_
      · rintro a₁ ⟨hseeks, hgrowing⟩
        refine ⟨fun room₁ => ?_, hseeks.unseen, ?_⟩
        · obtain ⟨hgrown, hholds⟩ := hgrowing room₁
          refine ⟨[], hgrown, hholds, ⟨?_, ?_, Nat.le_refl _⟩, fun r hr hnew => ?_⟩
          · rw [hseeks.events, List.map_nil, List.append_nil]
          · rw [hseeks.contexts]
            exact .start
          · rw [hseeks.contexts] at hr
            cases hnew.symm.trans hr
        · have := hseeks.missed
          omega
      · rintro c a' ⟨hannounced, -, hcount⟩ room'
        obtain ⟨l, hl⟩ := hannounced room'
        exact ⟨l, hl.le (by omega)⟩
      · rintro e a' ⟨hannounced, -, hcount⟩ room'
        obtain ⟨l, hl⟩ := hannounced room'
        exact ⟨l, hl.le (by omega)⟩
    exact hall.left rfl room

end Whole

end Resolver

/-- Resolvers that share a world, each with the root that it has read. -/
structure Resolvers where
  world : World
  roots : Nat → Option Context

/-- A call of one of the resolvers, and how the requests that it makes will be met. -/
structure Visit (Obj : Type) where
  who : Nat
  resolver : Resolver
  subject : Subject Obj
  refusal : Call → Nat → Option StorageError
  unseen : Nat → Bool

namespace Visit

variable {Obj : Type} [DomainObject Obj]

def before (v : Visit Obj) (t : Resolvers) : Atlas :=
  ⟨{ t.world with disruption := ⟨v.refusal, v.unseen, none⟩ }, t.roots v.who⟩

def run (v : Visit Obj) (t : Resolvers) : Except Error Context × Atlas :=
  (v.resolver.resolve v.subject).runFrom (v.before t)

def after (v : Visit Obj) (t : Resolvers) : Resolvers :=
  ⟨(v.run t).2.world, fun i => if i = v.who then (v.run t).2.root else t.roots i⟩

/-- How many searches of the call have seen nothing whatever was stored. -/
def missed (v : Visit Obj) (t : Resolvers) : Nat :=
  (v.run t).2.world.missed - (v.before t).world.missed

end Visit

namespace Resolvers

variable {Obj : Type}

def Reached (base : ContextStore) (t : Resolvers) : Prop :=
  ∀ i, Atlas.Reached base ⟨t.world, t.roots i⟩

theorem Reached.before {base : ContextStore} {t : Resolvers} (h : t.Reached base) (v : Visit Obj) :
    Atlas.Reached base (v.before t) := .elsewhere (h v.who) rfl rfl (.inl rfl)

variable [DomainObject Obj]

def of (s : ContextStore) : Resolvers := ⟨.ofContexts s, fun _ => none⟩

def visits (t : Resolvers) (vs : List (Visit Obj)) : Resolvers := vs.foldl (fun t v => v.after t) t

def missed : Resolvers → List (Visit Obj) → Nat
  | _, [] => 0
  | t, v :: vs => v.missed t + missed (v.after t) vs

theorem Reached.after {base : ContextStore} {t : Resolvers} (h : t.Reached base) (v : Visit Obj) :
    (v.after t).Reached base := by
  intro i
  have hroot : (v.after t).roots i = if i = v.who then (v.run t).2.root else t.roots i := rfl
  rw [hroot]
  split
  · exact .own v.resolver v.subject (h.before v)
  · have hother : Atlas.Reached base ⟨(v.before t).world, t.roots i⟩ :=
      .elsewhere (h i) rfl rfl (.inl rfl)
    exact .other v.resolver v.subject hother (h.before v)

theorem missed_eq_zero {vs : List (Visit Obj)} (h : ∀ v ∈ vs, ∀ k, v.unseen k = false)
    (t : Resolvers) : t.missed vs = 0 := by
  induction vs generalizing t with
  | nil => rfl
  | cons v vs ih =>
    obtain ⟨hv, hvs⟩ := List.forall_mem_cons.1 h
    obtain ⟨hunseen, -⟩ := (Resolver.keeps_missed v.unseen 0).stages.resolve v.resolver v.subject
      (v.before t) ⟨rfl, Nat.zero_le _⟩
    have hzero : (v.run t).2.world.missed = 0 := by
      rw [World.missed, show (v.run t).2.world.disruption.unseen = v.unseen from hunseen]
      exact List.countP_eq_zero.2 fun k _ => by rw [hv k]; decide
    rw [missed, ih hvs, Visit.missed, hzero, Nat.zero_sub]

theorem announced_visits {base : ContextStore} (hbase : base.Rooted Atlas.anywhere)
    (vs : List (Visit Obj)) {t : Resolvers} (h : t.Reached base)
    (room : (t.visits vs).world.contexts.size < capacity) :
    ∃ l, Resolver.Announced t.world (t.missed vs) l (t.visits vs).world := by
  induction vs generalizing t with
  | nil => exact ⟨[], by simp [visits], .start, Nat.le_refl _⟩
  | cons v vs ih =>
    obtain ⟨l', hl'⟩ := ih (h.after v) room
    have hmid : (v.after t).world.contexts.size < capacity :=
      Nat.lt_of_le_of_lt hl'.told.size_le room
    have hgrowing : (v.before t).Growing Atlas.anywhere (v.before t).world.contexts
        fun _ => True := fun room => by
      obtain ⟨hgrown, -⟩ := (h.before v).growing_of hbase room
      exact ⟨⟨hgrown.imposed, hgrown.rooted, .refl _, hgrown.cell⟩, trivial⟩
    obtain ⟨l, hl⟩ := Resolver.announced_resolve v.resolver v.subject hgrowing hmid
    have hfirst : Resolver.Announced t.world (v.missed t) l (v.after t).world :=
      ⟨hl.events, hl.told, hl.late⟩
    refine ⟨l ++ l', ?_, hfirst.told.trans hl'.told, ?_⟩
    · rw [show t.visits (v :: vs) = (v.after t).visits vs from rfl, hl'.events, hfirst.events,
        List.map_append, List.append_assoc]
    · rw [Announcement.lateCount_append]
      exact Nat.add_le_add hfirst.late hl'.late

/-- Over a tree, whatever resolvers are called and however their requests are met: the records that
have been added are announced, each once and in the order in which they were created. What is
announced besides was there before, and a search has missed it; without such searches nothing is
announced besides. -/
theorem announcements_of_visits {s : ContextStore} (hs : s.Rooted Atlas.anywhere)
    (vs : List (Visit Obj)) (room : ((of s).visits vs).world.contexts.size < capacity) :
    ∃ l : List Announcement,
      ((of s).visits vs).world.events.toList = l.map Announcement.event ∧
      s.Told l ((of s).visits vs).world.contexts ∧
      s.Gains (Announcement.made l) ((of s).visits vs).world.contexts ∧
      (Announcement.made l).map Record.id = Id.row s.nextId (Announcement.made l).length ∧
      Announcement.lateCount l ≤ (of s).missed vs ∧
      ((∀ v ∈ vs, ∀ k, v.unseen k = false) → Announcement.lateCount l = 0) := by
  have hstart : (of s).Reached s := fun _ => .start rfl rfl rfl
  obtain ⟨l, hl⟩ := announced_visits hs vs hstart room
  obtain ⟨-, hgains, hids⟩ := hl.told.gains hs room
  refine ⟨l, hl.events, hl.told, hgains, hids, hl.late, fun hseen => ?_⟩
  exact Nat.le_zero.1 (missed_eq_zero hseen (of s) ▸ hl.late)

/-- A desk is resolved, and again by a resolver whose first search misses it. -/
def deskTwice : List (Visit Strand) :=
  let desk : Subject Strand := .object ⟨⟨"desk", 1⟩, []⟩
  let r : Resolver := ⟨.empty, Resolver.defaultMaxDepth⟩
  [⟨0, r, desk, fun _ _ => none, fun _ => false⟩, ⟨1, r, desk, fun _ _ => none, (· = 1)⟩]

theorem announcements_of_visits_desk : ∃ l : List Announcement,
    ((of .new).visits deskTwice).world.events.toList = l.map Announcement.event ∧
      Announcement.lateCount l ≤ 1 ∧ (Announcement.made l).map Record.id = [2] := by
  obtain ⟨l, hevents, -, hgains, hids, hlate, -⟩ := announcements_of_visits
    (ContextStore.rooted_new Atlas.anywhere) deskTwice (by decide +kernel)
  have hmissed : (of .new).missed deskTwice = 1 := by decide +kernel
  have hsize : ((of .new).visits deskTwice).world.contexts.size = 2 := by decide +kernel
  have hone : (Announcement.made l).length = 1 := by
    have := hgains.size
    rw [hsize, show ContextStore.new.size = 1 by decide +kernel] at this
    omega
  rw [hone] at hids
  exact ⟨l, hevents, hmissed ▸ hlate, hids⟩

/-- The desk has one record, and two events tell of its creation. -/
theorem desk_announced_twice :
    ((of .new).visits deskTwice).world.events =
        #[.contextCreated 2 "desk" 1 "1/2/", .contextCreated 2 "desk" 1 "1/2/"] ∧
      ((of .new).visits deskTwice).world.contexts.size = ContextStore.new.size + 1 := by
  decide +kernel

end Resolvers

end Clearance
