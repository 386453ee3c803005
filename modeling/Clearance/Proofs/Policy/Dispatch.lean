import Mathlib.Data.List.DropRight
import Mathlib.Data.List.Nodup
import Clearance.Policy.Rules

/-! Which policy answers an ability, which action it is asked about, and which policies a registry
takes. -/
namespace Clearance

/-- The longest end of the ability that has no colon. -/
structure LastSegment (ability act : String) : Prop where
  ends : act.toList <:+ ability.toList
  bare : ':' ∉ act.toList
  longest : ∀ t, t <:+ ability.toList → ':' ∉ t → t.length ≤ act.toList.length

theorem LastSegment.unique {ability a b : String} (ha : LastSegment ability a)
    (hb : LastSegment ability b) : a = b := by
  have hlen : a.toList.length = b.toList.length :=
    Nat.le_antisymm (hb.longest _ ha.ends ha.bare) (ha.longest _ hb.ends hb.bare)
  have hab : a.toList <:+ b.toList := List.suffix_of_suffix_length_le ha.ends hb.ends hlen.le
  exact String.toList_inj.1 (hab.eq_of_length hlen)

theorem toList_actionOf (ability : String) :
    (actionOf ability).toList = ability.toList.rtakeWhile (· ≠ ':') :=
  String.toList_ofList

theorem lastSegment_actionOf (ability : String) : LastSegment ability (actionOf ability) where
  ends := toList_actionOf ability ▸ List.rtakeWhile_suffix ..
  bare := fun h => by
    rw [toList_actionOf] at h
    simpa using List.mem_rtakeWhile_imp h
  longest := fun t ht hc => by
    obtain ⟨front, hs⟩ := ht
    have hall : ∀ c ∈ t.reverse, decide (c ≠ ':') = true := fun c h =>
      decide_eq_true fun e => hc (e ▸ List.mem_reverse.1 h)
    rw [toList_actionOf, List.rtakeWhile, ← hs, List.reverse_append,
      List.takeWhile_append_of_pos hall]
    simp

theorem lastSegment_iff {ability act : String} :
    LastSegment ability act ↔ act = actionOf ability :=
  ⟨fun h => h.unique (lastSegment_actionOf ability), fun h => h ▸ lastSegment_actionOf ability⟩

theorem lastSegment_self {act : String} (h : ':' ∉ act.toList) : LastSegment act act where
  ends := List.suffix_rfl
  bare := h
  longest := fun _ ht _ => ht.length_le

theorem lastSegment_append {act : String} (h : ':' ∉ act.toList) (front : String) :
    LastSegment (front ++ ":" ++ act) act where
  ends := ⟨front.toList ++ [':'], by simp⟩
  bare := h
  longest := fun t ht hc => by
    by_contra hlt
    -- An end longer than the name reaches back to the colon before it.
    have hcolon : ':' :: act.toList <:+ (front ++ ":" ++ act).toList := ⟨front.toList, by simp⟩
    have : ':' :: act.toList <:+ t :=
      List.suffix_of_suffix_length_le hcolon ht (Nat.lt_of_not_le hlt)
    exact hc (this.subset (List.mem_cons_self ..))

/-- An action that abilities can name: it says something, and neither a colon nor a blank is in
it. -/
structure WellFormed (action : String) : Prop where
  nonempty : action ≠ ""
  bare : ':' ∉ action.toList
  unspaced : ∀ c ∈ action.toList, Text.isBlank c = false

theorem isMalformed_eq_false {action : String} :
    PolicyRegistry.isMalformed action = false ↔ WellFormed action := by
  have hany : (action.toList.any fun c => c = ':' || Text.isBlank c) = false ↔
      ':' ∉ action.toList ∧ ∀ c ∈ action.toList, Text.isBlank c = false := by
    simp only [List.any_eq_false, Bool.or_eq_true, decide_eq_true_eq, not_or,
      Bool.not_eq_true]
    exact ⟨fun h => ⟨fun hc => (h _ hc).1 rfl, fun c hc => (h c hc).2⟩,
      fun h c hc => ⟨fun e => h.1 (e ▸ hc), h.2 c hc⟩⟩
  rw [PolicyRegistry.isMalformed, Bool.or_eq_false_iff, hany, String.isEmpty_eq_false_iff]
  exact ⟨fun h => ⟨h.1, h.2.1, h.2.2⟩, fun h => ⟨h.nonempty, h.bare, h.unspaced⟩⟩

/-- What registration asks of the actions of a policy. -/
structure Declarable (actions : List String) : Prop where
  nonempty : actions ≠ []
  wellFormed : ∀ a ∈ actions, WellFormed a
  distinct : actions.Nodup

namespace PolicyRegistry

theorem actionProblem?_eq_none {seen actions : List String} :
    actionProblem? seen actions = none ↔
      (∀ a ∈ actions, WellFormed a) ∧ actions.Nodup ∧ ∀ a ∈ actions, a ∉ seen := by
  induction actions generalizing seen with
  | nil => simp [actionProblem?]
  | cons a rest ih =>
    cases hm : isMalformed a with
    | true =>
      have : ¬ WellFormed a := fun h => by simp [isMalformed_eq_false.2 h] at hm
      simp [actionProblem?, hm, this]
    | false =>
      by_cases hs : a ∈ seen
      · simp [actionProblem?, hm, hs]
      · have hw := isMalformed_eq_false.1 hm
        simp only [actionProblem?, hm, Bool.false_eq_true, if_false, hs, ih, List.mem_cons,
          forall_eq_or_imp, List.nodup_cons, not_or, hw, true_and, not_false_eq_true]
        constructor
        · rintro ⟨hrest, hnodup, hnot⟩
          exact ⟨hrest, ⟨fun h => (hnot a h).1 rfl, hnodup⟩, fun b hb => (hnot b hb).2⟩
        · rintro ⟨hrest, ⟨ha, hnodup⟩, hnot⟩
          exact ⟨hrest, hnodup, fun b hb => ⟨fun e => ha (e ▸ hb), hnot b hb⟩⟩

variable {Obj : Type}

theorem problem?_eq_none {r : PolicyRegistry Obj} {k : Kind} {actions : List String} :
    r.problem? k actions = none ↔ r.policies.get? k = none ∧ Declarable actions := by
  have hnil : actionProblem? [] actions = none ↔
      (∀ a ∈ actions, WellFormed a) ∧ actions.Nodup := by
    simp [actionProblem?_eq_none]
  cases hk : r.policies.get? k with
  | some p => simp [problem?, hasPolicyFor, SortedMap.contains, hk]
  | none =>
    cases actions with
    | nil => simpa [problem?, hasPolicyFor, SortedMap.contains, hk] using fun h => h.nonempty rfl
    | cons a rest =>
      simp only [problem?, hasPolicyFor, SortedMap.contains, hk, Option.isSome_none,
        Bool.false_eq_true, if_false, List.isEmpty_cons, hnil, true_and]
      exact ⟨fun h => ⟨List.cons_ne_nil a rest, h.1, h.2⟩, fun h => ⟨h.wellFormed, h.distinct⟩⟩

theorem register_eq_ok {r r' : PolicyRegistry Obj} {k : Kind} {p : Policy Obj} :
    r.register k p = .ok r' ↔
      r.policies.get? k = none ∧ Declarable p.actions ∧ r' = ⟨r.policies.insert k p⟩ := by
  rw [← and_assoc, ← problem?_eq_none]
  cases h : r.problem? k p.actions with
  | some m => simp [register, h]
  | none => simp [register, h, eq_comm]

/-- The registry holds the policies of the list, all of them such as registration takes. -/
structure Registered (ps : List (Kind × Policy Obj)) (r : PolicyRegistry Obj) : Prop where
  held : ∀ k p, r.policies.get? k = some p ↔ (k, p) ∈ ps
  declarable : ∀ k p, (k, p) ∈ ps → Declarable p.actions
  apart : (ps.map Prod.fst).Nodup

theorem registered_empty : Registered ([] : List (Kind × Policy Obj)) empty where
  held := by simp [empty]
  declarable := by simp
  apart := List.nodup_nil

theorem Registered.get?_eq_none {ps : List (Kind × Policy Obj)} {r : PolicyRegistry Obj}
    (h : Registered ps r) {k : Kind} : r.policies.get? k = none ↔ k ∉ ps.map Prod.fst := by
  rw [Option.eq_none_iff_forall_ne_some, List.mem_map]
  exact ⟨fun hn ⟨e, he, hk⟩ => hn e.2 ((h.held k e.2).2 (hk ▸ he)),
    fun hn p hp => hn ⟨(k, p), (h.held k p).1 hp, rfl⟩⟩

theorem Registered.register {ps : List (Kind × Policy Obj)} {r r' : PolicyRegistry Obj}
    (h : Registered ps r) {k : Kind} {p : Policy Obj} (hr : r.register k p = .ok r') :
    Registered (ps ++ [(k, p)]) r' := by
  obtain ⟨hk, hd, rfl⟩ := register_eq_ok.1 hr
  refine ⟨fun k' p' => ?_, fun k' p' hm => ?_, ?_⟩
  · by_cases he : k' = k
    · subst he
      have : (k', p') ∉ ps := fun hm => by simp [(h.held k' p').2 hm] at hk
      simp [this, eq_comm]
    · simp [SortedMap.get?_insert_of_ne _ _ he, h.held, he]
  · rcases List.mem_append.1 hm with hm | hm
    · exact h.declarable k' p' hm
    · obtain ⟨rfl, rfl⟩ := Prod.mk.inj (List.mem_singleton.1 hm)
      exact hd
  · rw [List.map_append, List.map_singleton, ← List.concat_eq_append]
    exact (List.nodup_concat ..).2 ⟨h.get?_eq_none.1 hk, h.apart⟩

theorem ofList_append (ps : List (Kind × Policy Obj)) (k : Kind) (p : Policy Obj) :
    ofList (ps ++ [(k, p)]) = ofList ps >>= fun r => r.register k p := by
  simp [ofList, List.foldlM_append]

theorem registered_ofList {ps : List (Kind × Policy Obj)} {r : PolicyRegistry Obj}
    (h : ofList ps = .ok r) : Registered ps r := by
  induction ps using List.reverseRecOn generalizing r with
  | nil =>
    cases h
    exact registered_empty
  | append_singleton ps e ih =>
    rw [ofList_append] at h
    cases hps : ofList ps with
    | error e => simp [hps, bind, Except.bind] at h
    | ok before => exact (ih hps).register (by simpa [hps, bind, Except.bind] using h)

theorem exists_ofList {ps : List (Kind × Policy Obj)} (hn : (ps.map Prod.fst).Nodup)
    (hd : ∀ k p, (k, p) ∈ ps → Declarable p.actions) : ∃ r, ofList ps = .ok r := by
  induction ps using List.reverseRecOn with
  | nil => exact ⟨_, rfl⟩
  | append_singleton ps e ih =>
    obtain ⟨k, p⟩ := e
    rw [List.map_append, List.map_singleton, ← List.concat_eq_append, List.nodup_concat] at hn
    obtain ⟨before, hb⟩ := ih hn.2 fun k p hm => hd k p (List.mem_append_left _ hm)
    have hk := (registered_ofList hb).get?_eq_none.2 hn.1
    refine ⟨⟨before.policies.insert k p⟩, ?_⟩
    rw [ofList_append, hb]
    exact register_eq_ok.2 ⟨hk, hd k p (by simp), rfl⟩

theorem rejects_of_problem {r : PolicyRegistry Obj} {k : Kind} {p : Policy Obj}
    (h : ¬ (r.policies.get? k = none ∧ Declarable p.actions)) :
    ∃ m, r.register k p = .error (.invalidPolicy k m) := by
  rw [← problem?_eq_none] at h
  obtain ⟨m, hm⟩ := Option.ne_none_iff_exists'.1 h
  exact ⟨m, by simp [register, hm]⟩

theorem object?_eq_some (subject : Subject Obj) (o : Obj) :
    subject.object? = some o ↔ subject = .object o := by
  cases subject <;> simp [Subject.object?]

variable [DomainObject Obj]

/-- What the policies say to an ability; `none` leaves the decision open. -/
inductive Decides (ps : List (Kind × Policy Obj)) (user : UserId) (ability : String)
    (subject : Subject Obj) : Option Response → Prop where
  | unasked (hp : ∀ k p, subject.kind? = some k → (k, p) ∉ ps) :
    Decides ps user ability subject none
  | allowed {k p} (hk : subject.kind? = some k) (hp : (k, p) ∈ ps)
      (hb : p.before user ability = .allow) :
    Decides ps user ability subject (some .allow)
  | denied {k p reason} (hk : subject.kind? = some k) (hp : (k, p) ∈ ps)
      (hb : p.before user ability = .deny reason) :
    Decides ps user ability subject (some (.denyBecause reason))
  | undeclared {k p act} (hk : subject.kind? = some k) (hp : (k, p) ∈ ps)
      (hb : p.before user ability = .defer) (hl : LastSegment ability act)
      (ha : act ∉ p.actions) :
    Decides ps user ability subject none
  | checked {k p act given} (hk : subject.kind? = some k) (hp : (k, p) ∈ ps)
      (hb : p.before user ability = .defer) (hl : LastSegment ability act)
      (ha : act ∈ p.actions) (hg : ∀ o, given = some o ↔ subject = .object o) :
    Decides ps user ability subject (some (p.check user act given))

theorem evaluate_of_get? {r : PolicyRegistry Obj} {k : Kind} {p : Policy Obj} {user : UserId}
    {ability : String} {subject : Subject Obj} (hk : subject.kind? = some k)
    (hp : r.policies.get? k = some p) :
    r.evaluate user ability subject = match p.before user ability with
      | .allow => some .allow
      | .deny reason => some (.denyBecause reason)
      | .defer =>
        if actionOf ability ∈ p.actions then
          some (p.check user (actionOf ability) subject.object?)
        else none := by
  simp only [evaluate, hk, hp, Option.bind_eq_bind, Option.bind_some]
  rfl

variable {ps : List (Kind × Policy Obj)} {r : PolicyRegistry Obj}

theorem Registered.decides (h : Registered ps r) (user : UserId) (ability : String)
    (subject : Subject Obj) : Decides ps user ability subject (r.evaluate user ability subject) := by
  cases hk : subject.kind? with
  | none =>
    have : r.evaluate user ability subject = none := by simp [evaluate, hk]
    exact this ▸ .unasked fun k p hk' => by simp [hk] at hk'
  | some k =>
    cases hp : r.policies.get? k with
    | none =>
      have : r.evaluate user ability subject = none := by simp [evaluate, hk, hp]
      refine this ▸ .unasked fun k' p hk' hm => ?_
      obtain rfl : k = k' := Option.some.inj (hk.symm.trans hk')
      simp [(h.held k p).2 hm] at hp
    | some p =>
      have hm := (h.held k p).1 hp
      rw [evaluate_of_get? hk hp]
      cases hb : p.before user ability with
      | allow => exact .allowed hk hm hb
      | deny reason => exact .denied hk hm hb
      | defer =>
        by_cases ha : actionOf ability ∈ p.actions
        · simp only [ha, if_true]
          exact .checked hk hm hb (lastSegment_actionOf ability) ha (object?_eq_some subject)
        · simp only [ha, if_false]
          exact .undeclared hk hm hb (lastSegment_actionOf ability) ha

/-- The policies leave no choice. -/
theorem Registered.evaluate_eq (h : Registered ps r) {user : UserId} {ability : String}
    {subject : Subject Obj} {o : Option Response} (ho : Decides ps user ability subject o) :
    r.evaluate user ability subject = o := by
  cases ho with
  | unasked hp =>
    cases hk : subject.kind? with
    | none => simp [evaluate, hk]
    | some k =>
      have : r.policies.get? k = none :=
        Option.eq_none_iff_forall_ne_some.2 fun p hg => hp k p hk ((h.held k p).1 hg)
      simp [evaluate, hk, this]
  | allowed hk hp hb => rw [evaluate_of_get? hk ((h.held _ _).2 hp), hb]
  | denied hk hp hb => rw [evaluate_of_get? hk ((h.held _ _).2 hp), hb]
  | undeclared hk hp hb hl ha =>
    obtain rfl := lastSegment_iff.1 hl
    rw [evaluate_of_get? hk ((h.held _ _).2 hp), hb]
    exact if_neg ha
  | checked hk hp hb hl ha hg =>
    obtain rfl := lastSegment_iff.1 hl
    rw [evaluate_of_get? hk ((h.held _ _).2 hp), hb,
      Option.ext fun o => (hg o).trans (object?_eq_some subject o).symm]
    exact if_pos ha

/-- The policy with other answers to the actions that no ability can name or that are blank. -/
def answering (other : UserId → String → Option Obj → Response) (p : Policy Obj) : Policy Obj :=
  { p with
    check := fun user act o =>
      if isMalformed act then other user act o else p.check user act o }

theorem Decides.answering {user : UserId} {ability : String} {subject : Subject Obj}
    {o : Option Response} (ho : Decides ps user ability subject o)
    (hd : ∀ k p, (k, p) ∈ ps → Declarable p.actions)
    (other : Kind → UserId → String → Option Obj → Response) :
    Decides (ps.map fun e => (e.1, PolicyRegistry.answering (other e.1) e.2)) user ability subject
      o := by
  have hmem : ∀ {k p}, (k, p) ∈ ps →
      (k, PolicyRegistry.answering (other k) p) ∈
        ps.map fun e => (e.1, PolicyRegistry.answering (other e.1) e.2) :=
    fun hm => List.mem_map.2 ⟨_, hm, rfl⟩
  cases ho with
  | unasked hp =>
    refine .unasked fun k q hk hm => ?_
    obtain ⟨e, he, heq⟩ := List.mem_map.1 hm
    obtain ⟨rfl, -⟩ := Prod.mk.inj heq
    exact hp e.1 e.2 hk he
  | allowed hk hp hb => exact .allowed hk (hmem hp) hb
  | denied hk hp hb => exact .denied hk (hmem hp) hb
  | undeclared hk hp hb hl ha => exact .undeclared hk (hmem hp) hb hl ha
  | @checked k p act given hk hp hb hl ha hg =>
    have hw : isMalformed act = false := isMalformed_eq_false.2 ((hd k p hp).wellFormed act ha)
    have heq : (PolicyRegistry.answering (other k) p).check user act given =
        p.check user act given := by
      simp [PolicyRegistry.answering, hw]
    exact heq ▸ .checked hk (hmem hp) hb hl ha hg

/-- How a registry of the policies `ps` treats abilities and further policies. -/
structure Dispatches (ps : List (Kind × Policy Obj)) (r : PolicyRegistry Obj) : Prop where
  decides : ∀ user ability subject o,
    r.evaluate user ability subject = o ↔ Decides ps user ability subject o
  /-- Every declared action is reached by its name, alone or behind a colon. -/
  reaches : ∀ k p, (k, p) ∈ ps → ∀ act ∈ p.actions, ∀ ability,
    (ability = act ∨ ∃ front, ability = front ++ ":" ++ act) →
    ∀ user subject, subject.kind? = some k → p.before user ability = .defer →
      r.evaluate user ability subject = some (p.check user act subject.object?)
  /-- No other action reaches a policy: other answers to malformed actions change nothing. -/
  guarded : ∀ other : Kind → UserId → String → Option Obj → Response,
    ∃ r', ofList (ps.map fun e => (e.1, answering (other e.1) e.2)) = .ok r' ∧
      ∀ user ability subject, r'.evaluate user ability subject = r.evaluate user ability subject
  wellFormed : ∀ k p, (k, p) ∈ ps → ∀ act ∈ p.actions, WellFormed act
  /-- One more policy is taken unless its kind has one or its actions are not declarable. -/
  takes : ∀ k p, k ∉ ps.map Prod.fst → Declarable p.actions →
    ∃ r', r.register k p = .ok r' ∧ ofList (ps ++ [(k, p)]) = .ok r'
  rejects : ∀ k p, (k ∈ ps.map Prod.fst ∨ p.actions = [] ∨ (∃ a ∈ p.actions, ¬ WellFormed a) ∨
    ¬ p.actions.Nodup) → ∃ m, r.register k p = .error (.invalidPolicy k m)

theorem Registered.reaches (h : Registered ps r) {k : Kind} {p : Policy Obj} (hp : (k, p) ∈ ps)
    {act : String} (ha : act ∈ p.actions) {ability : String} (hl : LastSegment ability act)
    {user : UserId} {subject : Subject Obj} (hk : subject.kind? = some k)
    (hb : p.before user ability = .defer) :
    r.evaluate user ability subject = some (p.check user act subject.object?) :=
  h.evaluate_eq (.checked hk hp hb hl ha (object?_eq_some subject))

/-- A registry that registrations alone have made asks the policy of the subject's kind about the
last segment of the ability, for every ability and subject. -/
theorem dispatches_of_ofList (h : ofList ps = .ok r) : Dispatches ps r := by
  have hr := registered_ofList h
  refine ⟨fun user ability subject o => ⟨fun e => e ▸ hr.decides user ability subject,
    hr.evaluate_eq⟩, ?_, fun other => ?_, fun k p hp => (hr.declarable k p hp).wellFormed,
    fun k p hk hd => ?_, fun k p hbad => rejects_of_problem fun ⟨hk, hd⟩ => ?_⟩
  · rintro k p hp act ha ability hab user subject hk hb
    have hbare := ((hr.declarable k p hp).wellFormed act ha).bare
    rcases hab with rfl | ⟨front, rfl⟩
    · exact hr.reaches hp ha (lastSegment_self hbare) hk hb
    · exact hr.reaches hp ha (lastSegment_append hbare front) hk hb
  · have hd : ∀ k q, (k, q) ∈ ps.map (fun e => (e.1, answering (other e.1) e.2)) →
        Declarable q.actions := by
      intro k q hm
      obtain ⟨e, he, heq⟩ := List.mem_map.1 hm
      obtain ⟨rfl, rfl⟩ := Prod.mk.inj heq
      exact hr.declarable e.1 e.2 he
    obtain ⟨r', hr'⟩ := exists_ofList (by simpa [Function.comp_def] using hr.apart) hd
    exact ⟨r', hr', fun user ability subject => (registered_ofList hr').evaluate_eq
      ((hr.decides user ability subject).answering hr.declarable other)⟩
  · have hreg := register_eq_ok.2 ⟨hr.get?_eq_none.2 hk, hd, rfl⟩
    exact ⟨_, hreg, by rw [ofList_append, h]; exact hreg⟩
  · rcases hbad with hm | hnil | ⟨a, ha, hw⟩ | hdup
    · exact hr.get?_eq_none.1 hk hm
    · exact hd.nonempty hnil
    · exact hw (hd.wellFormed a ha)
    · exact hdup hd.distinct

/-- Two kinds with a policy each, the first of which speaks before the action to one user. -/
theorem dispatches_of_ofList_resources :
    let ps : List (Kind × Policy Resource) :=
      [("post", .ofRules ["update", "create"] [⟨some 7, none, .deny "banned"⟩]
          [⟨none, some "update", some true, some true, none, .denyBecause "post is locked"⟩,
            ⟨none, none, none, none, none, .allow⟩]),
        ("page", .ofRules ["view"] [] [])]
    ∃ r, ofList ps = .ok r ∧ Dispatches ps r :=
  ⟨_, rfl, dispatches_of_ofList rfl⟩

end PolicyRegistry

end Clearance
