import Clearance.Proofs.Context.Containment
import Clearance.Proofs.Object
import Clearance.Proofs.Resolver.Reached

/-! Containment as the order of a tree. Among the contexts of a store that resolvers alone have
changed, a context contains those whose ancestors begin with its own, which can be seen from the
paths as well: a slash closes each id, so that the path of 5 does not begin the path of 50. -/
namespace Clearance

open ContextStore (capacity)

namespace Path

theorem write_cons (id : ContextId) (ids : List ContextId) :
    write (id :: ids) = Id.write id ++ '/' :: write ids := by
  simp [write]

/-- A text begins another one if both agree up to the first slash and it begins there, too. -/
theorem append_slash_prefix_iff {p q rest rest' : List Char} (hp : '/' ∉ p) (hq : '/' ∉ q) :
    p ++ '/' :: rest <+: q ++ '/' :: rest' ↔ p = q ∧ rest <+: rest' := by
  induction p generalizing q with
  | nil =>
    cases q with
    | nil => simp
    | cons d q =>
      have hd : '/' ≠ d := fun h => hq (h ▸ List.mem_cons_self ..)
      simp [hd]
  | cons c p ih =>
    rw [List.mem_cons, not_or] at hp
    cases q with
    | nil => simp [Ne.symm hp.1]
    | cons d q =>
      rw [List.mem_cons, not_or] at hq
      simp only [List.cons_append, List.cons_prefix_cons, List.cons.injEq]
      rw [ih hp.2 hq.2, and_assoc]

/-- A written path begins another one exactly where its ids do. -/
theorem write_prefix_iff {ids ids' : List ContextId} : write ids <+: write ids' ↔ ids <+: ids' := by
  induction ids generalizing ids' with
  | nil => simp [write]
  | cons id ids ih =>
    cases ids' with
    | nil => simp [write]
    | cons id' ids' =>
      rw [write_cons, write_cons,
        append_slash_prefix_iff (slash_not_mem_write id) (slash_not_mem_write id'), ih,
        List.cons_prefix_cons]
      constructor
      · rintro ⟨hid, hids⟩
        exact ⟨Id.write_injective hid, hids⟩
      · rintro ⟨hid, hids⟩
        exact ⟨congrArg Id.write hid, hids⟩

end Path

namespace Context

/-- Containment orders these contexts as a tree below the root, and the paths show it. -/
structure TreeOrder (S : Context → Prop) : Prop where
  refl : ∀ c, S c → c.contains c = true
  antisymm : ∀ c d, S c → S d → c.contains d = true → d.contains c = true → c = d
  trans : ∀ c d e, S c → S d → S e →
    c.contains d = true → d.contains e = true → c.contains e = true
  root : ∀ c, S c → Context.root.contains c = true
  comparable : ∀ c d e, S c → S d → S e →
    c.contains e = true → d.contains e = true → c.contains d = true ∨ d.contains c = true
  path : ∀ c d, S c → S d → (c.contains d = true ↔ d.path.startsWith c.path = true)

theorem root_contains (c : Context) : root.contains c = true :=
  contains_iff.2 (List.mem_of_mem_head? c.lineage.first)

theorem id_eq_of_ancestors {c d : Context} (h : c.ancestors = d.ancestors) : c.id = d.id := by
  have hlast := c.lineage.last
  rw [h, d.lineage.last] at hlast
  exact (Option.some.inj hlast).symm

theorem treeOrder_of_prefix {S : Context → Prop}
    (hbegins : ∀ c d, S c → S d → (c.contains d = true ↔ c.ancestors <+: d.ancestors))
    (hpath : ∀ c, S c → c.path = String.ofList (Path.write c.ancestors))
    (hid : ∀ c d, S c → S d → c.id = d.id → c = d) : TreeOrder S where
  refl c hc := (hbegins c c hc hc).2 (List.prefix_refl _)
  antisymm c d hc hd hcd hdc := by
    have hcd := (hbegins c d hc hd).1 hcd
    have hdc := (hbegins d c hd hc).1 hdc
    have heq := hcd.eq_of_length_le hdc.length_le
    exact hid c d hc hd (id_eq_of_ancestors heq)
  trans c d e hc hd he hcd hde := by
    have hcd := (hbegins c d hc hd).1 hcd
    have hde := (hbegins d e hd he).1 hde
    exact (hbegins c e hc he).2 (hcd.trans hde)
  root c _ := root_contains c
  comparable c d e hc hd he hce hde := by
    have hce := (hbegins c e hc he).1 hce
    have hde := (hbegins d e hd he).1 hde
    rcases List.prefix_or_prefix_of_prefix hce hde with h | h
    · exact .inl ((hbegins c d hc hd).2 h)
    · exact .inr ((hbegins d c hd hc).2 h)
  path c d hc hd := by
    rw [hbegins c d hc hd, String.startsWith_string_iff, hpath c hc, hpath d hd,
      String.toList_ofList, String.toList_ofList, Path.write_prefix_iff]

end Context

namespace ContextStore

/-- A context that is made from a record of the store, or the root, which can be had without. -/
def Offers (s : ContextStore) (c : Context) : Prop := s.Holds c ∨ c = .root

namespace Rooted

variable {allowed : Owner → Option Owner → Prop} {s : ContextStore} {c d : Context}

theorem holds_of_offers (h : Rooted allowed s) (hc : s.Offers c) : s.Holds c := by
  rcases hc with hc | rfl
  · exact hc
  · exact h.root

theorem contains_iff_prefix (h : Rooted allowed s) (hc : s.Holds c) (hd : s.Holds d) :
    c.contains d = true ↔ c.ancestors <+: d.ancestors := by
  constructor
  · exact h.prefix_of_contains hc hd
  · intro hbegins
    exact Context.contains_iff.2 (hbegins.subset (List.mem_of_getLast? c.lineage.last))

theorem treeOrder (h : Rooted allowed s) : Context.TreeOrder s.Offers := by
  apply Context.treeOrder_of_prefix
  · intro c d hc hd
    exact h.contains_iff_prefix (h.holds_of_offers hc) (h.holds_of_offers hd)
  · intro c hc
    exact h.path_eq (h.holds_of_offers hc)
  · intro c d hc hd hid
    have hc := h.holds_of_offers hc
    have hd := h.holds_of_offers hd
    unfold Holds at hc hd
    rw [hid, hd] at hc
    exact Context.ext_record (Option.some.inj hc).symm

end Rooted

theorem treeOrder_withoutRoot : Context.TreeOrder withoutRoot.Offers := by
  have hroot : ∀ c, withoutRoot.Offers c → c = .root := by
    rintro c (hc | hc)
    · cases hc
    · exact hc
  apply Context.treeOrder_of_prefix
  · intro c d hc hd
    rw [hroot c hc, hroot d hd]
    decide
  · intro c hc
    rw [hroot c hc]
    decide
  · intro c d hc hd _
    rw [hroot c hc, hroot d hd]

end ContextStore

namespace Atlas

/-- After any calls of any resolvers, containment is the order of a tree on the contexts of the
store. -/
theorem treeOrder_of_reached {a : Atlas} (h : a.Reached .new ∨ a.Reached .withoutRoot)
    (room : a.world.contexts.size < capacity) : Context.TreeOrder a.world.contexts.Offers := by
  rcases h with h | h
  · exact (h.rooted room).treeOrder
  · have hcontexts : a.world.contexts = .withoutRoot := h.rootless.contexts
    rw [hcontexts]
    exact ContextStore.treeOrder_withoutRoot

/-- So many desks that have been resolved one after the other on a new store. -/
def desks : Nat → Atlas
  | 0 => ⟨.new, none⟩
  | n + 1 =>
    let r : Resolver := ⟨.empty, Resolver.defaultMaxDepth⟩
    let desk : Strand := ⟨⟨"desk", .ofNat (n + 1)⟩, []⟩
    ((r.resolve (.object desk)).runFrom (desks n)).2

theorem reached_desks (n : Nat) : (desks n).Reached .new := by
  induction n with
  | zero => exact .start rfl rfl rfl
  | succ n ih => exact .own _ _ ih

/-- The path of the first desk, `1/2/`, does not begin that of the nineteenth, `1/20/`, and the first
does not contain the nineteenth. -/
theorem treeOrder_of_reached_desks : ∃ (a : Atlas) (c d : Context), a.Reached .new ∧
    a.world.contexts.size < capacity ∧ a.world.contexts.Offers c ∧ a.world.contexts.Offers d ∧
      c.path = "1/2/" ∧ d.path = "1/20/" ∧ Context.root.contains d = true ∧
      c.contains d = false ∧ d.path.startsWith c.path = false := by
  let c : Context := ⟨⟨2, some 1, "desk", some 1, 1, "1/2/"⟩, [1, 2], by decide +kernel⟩
  let d : Context := ⟨⟨20, some 1, "desk", some 19, 1, "1/20/"⟩, [1, 20], by decide +kernel⟩
  obtain ⟨room, hgetc, hgetd⟩ : (desks 19).world.contexts.size < capacity ∧
      (desks 19).world.contexts.get 2 = some ⟨2, some 1, "desk", some 1, 1, "1/2/"⟩ ∧
        (desks 19).world.contexts.get 20 = some ⟨20, some 1, "desk", some 19, 1, "1/20/"⟩ := by
    decide +kernel
  have hc : (desks 19).world.contexts.Offers c := .inl hgetc
  have hd : (desks 19).world.contexts.Offers d := .inl hgetd
  have htree := treeOrder_of_reached (.inl (reached_desks 19)) room
  have hapart : c.contains d = false := by decide
  refine ⟨desks 19, c, d, reached_desks 19, room, hc, hd, rfl, rfl, htree.root d hd, hapart, ?_⟩
  rw [Bool.eq_false_iff] at hapart ⊢
  exact mt (htree.path c d hc hd).2 hapart

end Atlas

end Clearance
