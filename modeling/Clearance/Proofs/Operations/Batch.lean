import Clearance.Operations.Batch
import Clearance.Proofs.Object
import Clearance.Proofs.Session.Again

/-! Batches and single checks. A batch answers each of its abilities as a check in a session of its
own would answer it, or it fails as the first check would that has no answer. -/
namespace Clearance

open Service (isAnswer Follows After Spent)

namespace Operations

variable {Obj : Type} [DomainObject Obj] {v : Service Obj} {user : UserId} {subject : Subject Obj}
  {s : Scene} {abilities : List String}

/-- The outcome of a check in a session of its own. -/
def checkAlone (v : Service Obj) (s : Scene) (user : UserId) (subject : Subject Obj)
    (ability : String) : Except Error Bool :=
  ((Service.inFreshSession (v.check user ability subject)).runFrom s).1

/-- The outcome of a batch is what the outcomes of the single checks amount to. -/
structure Amounts (alone : String → Except Error Bool) (abilities : List String)
    (outcome : Except BatchError BatchAnswers) : Prop where
  ok_iff : (∃ b, outcome = .ok b) ↔ ∀ a ∈ abilities, isAnswer (alone a) = true
  total : ∀ b, outcome = .ok b → b.total = abilities.length
  answers : ∀ b, outcome = .ok b → ∀ a,
    b.allowed? a = if a ∈ abilities then some (decide (alone a = .ok true)) else none
  failure : (∃ a ∈ abilities, isAnswer (alone a) = false) → ∃ before a after e,
    abilities = before ++ a :: after ∧ (∀ a' ∈ before, isAnswer (alone a') = true) ∧
      alone a = .error e ∧ isAnswer (.error e) = false ∧ outcome = .error (.check e)

/-- What a batch makes of the outcome of a check. -/
def plain : Except Error Bool → Except Error Bool
  | .error (.denied ..) => .ok false
  | r => r

theorem plain_of_isAnswer {r : Except Error Bool} (h : isAnswer r = true) :
    plain r = .ok (decide (r = .ok true)) := by
  match r with
  | .ok true => rfl
  | .ok false => rfl
  | .error (.denied ability reason) => rfl

theorem plain_error {e : Error} (h : isAnswer (.error e) = false) : plain (.error e) = .error e := by
  cases e with
  | denied ability reason => cases h
  | _ => rfl

/-- The answers to these abilities and those that are there already, if no check fails. -/
def gather (reply : String → Except Error Bool) (answers : SortedMap String Bool) :
    List String → Except Error (SortedMap String Bool)
  | [] => .ok answers
  | a :: rest =>
    if answers.contains a then gather reply answers rest
    else match plain (reply a) with
      | .ok b => gather reply (answers.insert a b) rest
      | .error e => .error e

section Gather

variable {reply : String → Except Error Bool} {answers m : SortedMap String Bool}

def Agrees (reply : String → Except Error Bool) (answers : SortedMap String Bool) : Prop :=
  ∀ a b, answers.get? a = some b → isAnswer (reply a) = true ∧ b = decide (reply a = .ok true)

theorem agrees_empty : Agrees reply .empty := nofun

theorem Agrees.insert (h : Agrees reply answers) {a : String} (ha : isAnswer (reply a) = true) :
    Agrees reply (answers.insert a (decide (reply a = .ok true))) := by
  intro a' b hb
  rcases SortedMap.get?_insert_eq_some hb with ⟨rfl, rfl⟩ | ⟨-, hb⟩
  · exact ⟨ha, rfl⟩
  · exact h a' b hb

theorem gather_cons (hagrees : Agrees reply answers) {a : String} (ha : isAnswer (reply a) = true)
    (rest : List String) : ∃ answers', Agrees reply answers' ∧
      gather reply answers (a :: rest) = gather reply answers' rest ∧
      answers'.get? a = some (decide (reply a = .ok true)) ∧
      ∀ a', a' ≠ a → answers'.get? a' = answers.get? a' := by
  by_cases hold : answers.contains a = true
  · obtain ⟨b, hb⟩ := Option.isSome_iff_exists.1 hold
    refine ⟨answers, hagrees, by rw [gather, if_pos hold], ?_, fun _ _ => rfl⟩
    rw [hb, (hagrees a b hb).2]
  · refine ⟨_, hagrees.insert ha, ?_, SortedMap.get?_insert_self .., fun a' hne => ?_⟩
    · rw [gather, if_neg hold, plain_of_isAnswer ha]
    · exact SortedMap.get?_insert_of_ne _ _ hne

theorem gather_of_answered (hagrees : Agrees reply answers)
    (h : ∀ a ∈ abilities, isAnswer (reply a) = true) :
    ∃ m, gather reply answers abilities = .ok m ∧ ∀ a, m.get? a =
      if a ∈ abilities then some (decide (reply a = .ok true)) else answers.get? a := by
  induction abilities generalizing answers with
  | nil => exact ⟨answers, rfl, fun _ => rfl⟩
  | cons a rest ih =>
    obtain ⟨answers', hagrees', hrun, hself, hother⟩ := gather_cons hagrees (h a (.head _)) rest
    obtain ⟨m, hm, hget⟩ := ih hagrees' fun a' h' => h a' (.tail _ h')
    refine ⟨m, hrun.trans hm, fun a' => ?_⟩
    rw [hget]
    by_cases heq : a' = a
    · subst heq
      simp [hself]
    · simp [heq, hother a' heq]

/-- The first check without an answer fails them all. -/
theorem gather_of_failure {before after : List String} {a : String} {e : Error}
    (hagrees : Agrees reply answers) (hbefore : ∀ a' ∈ before, isAnswer (reply a') = true)
    (ha : reply a = .error e) (he : isAnswer (.error e) = false) :
    gather reply answers (before ++ a :: after) = .error e := by
  induction before generalizing answers with
  | nil =>
    have hnew : ¬answers.contains a = true := fun hold => by
      obtain ⟨b, hb⟩ := Option.isSome_iff_exists.1 hold
      have hanswer := (hagrees a b hb).1
      rw [ha, he] at hanswer
      cases hanswer
    rw [List.nil_append, gather, if_neg hnew, ha, plain_error he]
  | cons a' before ih =>
    obtain ⟨answers', hagrees', hrun, -⟩ :=
      gather_cons hagrees (hbefore a' (.head _)) (before ++ a :: after)
    rw [List.cons_append, hrun]
    exact ih hagrees' fun a h => hbefore a (.tail _ h)

theorem exists_failure (h : ∃ a ∈ abilities, isAnswer (reply a) = false) :
    ∃ before a after e, abilities = before ++ a :: after ∧
      (∀ a' ∈ before, isAnswer (reply a') = true) ∧ reply a = .error e ∧
      isAnswer (.error e) = false := by
  obtain ⟨a₀, hmem, ha₀⟩ := h
  have hsome : (abilities.find? fun a => !isAnswer (reply a)).isSome = true :=
    List.find?_isSome.2 ⟨a₀, hmem, by rw [ha₀]; rfl⟩
  obtain ⟨a, ha⟩ := Option.isSome_iff_exists.1 hsome
  obtain ⟨hfails, before, after, habilities, hbefore⟩ := List.find?_eq_some_iff_append.1 ha
  cases hreply : reply a with
  | ok b =>
    rw [hreply] at hfails
    cases hfails
  | error e =>
    rw [hreply] at hfails
    refine ⟨before, a, after, e, habilities, fun a' h' => ?_, hreply, ?_⟩
    · simpa using hbefore a' h'
    · simpa using hfails

def outcomeOf (reply : String → Except Error Bool) (abilities : List String) :
    Except BatchError BatchAnswers :=
  ((gather reply .empty abilities).mapError .check).map (⟨·, abilities.length⟩)

theorem amounts_outcomeOf (reply : String → Except Error Bool) (abilities : List String) :
    Amounts reply abilities (outcomeOf reply abilities) := by
  by_cases h : ∀ a ∈ abilities, isAnswer (reply a) = true
  · obtain ⟨m, hm, hget⟩ := gather_of_answered agrees_empty h
    have hout : outcomeOf reply abilities = .ok ⟨m, abilities.length⟩ := by
      rw [outcomeOf, hm]
      rfl
    rw [hout]
    refine ⟨⟨fun _ => h, fun _ => ⟨_, rfl⟩⟩, fun b hb => ?_, fun b hb => ?_, ?_⟩
    · cases hb
      rfl
    · cases hb
      exact hget
    · rintro ⟨a, hmem, ha⟩
      cases (h a hmem).symm.trans ha
  · have hsome : ∃ a ∈ abilities, isAnswer (reply a) = false := by
      simpa using h
    obtain ⟨before, a, after, e, rfl, hbefore, ha, he⟩ := exists_failure hsome
    have hout : outcomeOf reply (before ++ a :: after) = .error (.check e) := by
      rw [outcomeOf, gather_of_failure agrees_empty hbefore ha he]
      rfl
    rw [hout]
    refine ⟨⟨nofun, fun hall => absurd hall h⟩, nofun, nofun, fun _ => ?_⟩
    exact ⟨before, a, after, e, rfl, hbefore, ha, he, rfl⟩

end Gather

/-- The order of the abilities does not matter to the answers. -/
theorem Amounts.toOption_eq {alone : String → Except Error Bool} {abilities' : List String}
    {outcome outcome' : Except BatchError BatchAnswers} (h : Amounts alone abilities outcome)
    (h' : Amounts alone abilities' outcome') (hperm : abilities'.Perm abilities) :
    outcome'.toOption = outcome.toOption := by
  have hall : (∀ a ∈ abilities', isAnswer (alone a) = true) ↔
      ∀ a ∈ abilities, isAnswer (alone a) = true := by
    simp only [hperm.mem_iff]
  match outcome, outcome' with
  | .ok ⟨m, n⟩, .ok ⟨m', n'⟩ =>
    have hn : n' = n := (h'.total _ rfl).trans (hperm.length_eq.trans (h.total _ rfl).symm)
    have hm : m' = m := by
      apply SortedMap.ext_get?
      intro a
      have ha := h.answers _ rfl a
      have ha' := h'.answers _ rfl a
      simp only [hperm.mem_iff] at ha'
      exact ha'.trans ha.symm
    rw [hn, hm]
  | .ok b, .error e' =>
    obtain ⟨b', hb'⟩ := h'.ok_iff.2 (hall.2 (h.ok_iff.1 ⟨b, rfl⟩))
    cases hb'
  | .error e, .ok b' =>
    obtain ⟨b, hb⟩ := h.ok_iff.2 (hall.1 (h'.ok_iff.1 ⟨b', rfl⟩))
    cases hb
  | .error e, .error e' => rfl

theorem batchProblem?_eq_none (hne : abilities ≠ []) (hsmall : abilities.length ≤ maxBatchSize)
    (hnamed : ∀ a ∈ abilities, Text.allBlank a = false) : batchProblem? abilities = none := by
  have hblank : abilities.findIdx? Text.allBlank = none := List.findIdx?_eq_none_iff.2 hnamed
  rw [batchProblem?, if_neg (by simpa using hne), if_neg (Nat.not_lt.2 hsmall), hblank]
  rfl

/-- A check of a batch has the outcome that it would have at its beginning. -/
theorem gives_checkPlain (h : s.world.ahead = .none) (ability : String) :
    (checkPlain v user ability subject).Gives (Follows v user subject s)
      (plain (v.reply s user subject ability))
      (After v user subject s (v.reply s user subject ability)) := by
  refine (Follows.gives_check h ability).attempt.bind ?_
  match v.reply s user subject ability with
  | .ok b => exact Act.gives_pure fun _ ht => ht
  | .error (.denied ability reason) => exact Act.gives_pure fun _ ht => ht
  | .error (.configuration _) | .error (.contextNotFound ..) | .error (.corruptPath ..)
  | .error (.depthExceeded _) | .error (.invalidPolicy ..) | .error .serialization
  | .error (.storage _) => exact Act.gives_throw fun _ ht => ht

theorem gives_checkEach (h : s.world.ahead = .none) (answers : SortedMap String Bool)
    (abilities : List String) : (checkEach v user subject answers abilities).Gives
      (Follows v user subject s) (gather (v.reply s user subject) answers abilities) (Spent s) := by
  induction abilities generalizing answers with
  | nil => exact Act.gives_pure fun _ ht => ht.spent
  | cons a rest ih =>
    have hcheck : (checkPlain v user a subject).Gives (Follows v user subject s) _ _ :=
      gives_checkPlain h a
    unfold checkEach gather
    by_cases hold : answers.contains a = true
    · rw [if_pos hold, if_pos hold]
      exact ih answers
    · rw [if_neg hold, if_neg hold]
      by_cases hanswer : isAnswer (v.reply s user subject a) = true
      · rw [plain_of_isAnswer hanswer] at hcheck ⊢
        exact (hcheck.weaken fun _ ht => ht.goesOn hanswer).bind (ih _)
      · cases hreply : v.reply s user subject a with
        | ok b =>
          rw [hreply] at hanswer
          exact absurd rfl hanswer
        | error e =>
          rw [hreply] at hanswer hcheck
          rw [plain_error (Bool.eq_false_iff.2 hanswer)] at hcheck ⊢
          exact (hcheck.weaken fun _ ht => ht.spent).bind_error

theorem gives_checkBatch (h : s.world.ahead = .none) (hproblem : batchProblem? abilities = none) :
    (checkBatch v user abilities subject).Gives (· = s)
      (outcomeOf (v.reply { s with held := .empty } user subject) abilities) (Spent s) := by
  have hfresh : (Service.inFreshSession (checkEach v user subject .empty abilities)).Gives (· = s)
      (gather (v.reply { s with held := .empty } user subject) .empty abilities) (Spent s) := by
    rintro s rfl
    exact gives_checkEach (s := { s with held := .empty }) h .empty abilities _ (.refl h)
  unfold checkBatch outcomeOf
  rw [hproblem]
  generalize gather _ .empty abilities = r at hfresh
  match r with
  | .error e => exact (hfresh.mapError BatchError.check).bind_error
  | .ok m =>
    have hlog (e : Event) : (Scene.log e : Act Scene BatchError Unit).Gives (Spent s) (.ok ⟨⟩)
        (Spent s) := Act.gives_modify fun _ h => h
    have hcount : (countBatch abilities.length).Gives (Spent s) (.ok ⟨⟩) (Spent s) := by
      refine Act.Gives.bind (R := Spent s) (Act.gives_modify ?_) (Act.gives_modify ?_)
      · exact fun _ h => h
      · exact fun _ h => h
    refine (hfresh.mapError BatchError.check).bind (hcount.bind ((hlog _).bind ?_))
    exact Act.gives_pure fun _ h => h

theorem checkAlone_eq_reply (h : s.world.ahead = .none) (ability : String) :
    checkAlone v s user subject ability =
      v.reply { s with held := .empty } user subject ability :=
  (Follows.gives_check (s := { s with held := .empty }) h ability _ (Follows.refl h)).1

/-- Where nothing is disrupted, a batch is what its checks amount to, each of them made from the
same scene in a session of its own. The order of the abilities does not matter to the answers, and
the assignments are loaded once at most. -/
theorem checkBatch_amounts (v : Service Obj) (user : UserId) (subject : Subject Obj)
    (calm : s.world.ahead = .none) (nonempty : abilities ≠ [])
    (small : abilities.length ≤ maxBatchSize)
    (named : ∀ a ∈ abilities, Text.allBlank a = false) :
    Amounts (checkAlone v s user subject) abilities
      ((checkBatch v user abilities subject).runFrom s).1 ∧
    (∀ abilities', abilities'.Perm abilities →
      ((checkBatch v user abilities' subject).runFrom s).1.toOption =
        ((checkBatch v user abilities subject).runFrom s).1.toOption) ∧
    ((checkBatch v user abilities subject).runFrom s).2.world.callCount .loadAssignments ≤
      s.world.callCount .loadAssignments + 1 := by
  have hreply : checkAlone v s user subject = v.reply { s with held := .empty } user subject :=
    funext (checkAlone_eq_reply calm)
  have hamounts (l : List String) (hproblem : batchProblem? l = none) :
      Amounts (checkAlone v s user subject) l ((checkBatch v user l subject).runFrom s).1 := by
    rw [(gives_checkBatch calm hproblem s rfl).1, hreply]
    exact amounts_outcomeOf _ l
  have hproblem := batchProblem?_eq_none nonempty small named
  refine ⟨hamounts abilities hproblem, fun l hperm => ?_, ?_⟩
  · have hnonempty : l ≠ [] := by
      rintro rfl
      exact nonempty hperm.symm.eq_nil
    have hnamed : ∀ a ∈ l, Text.allBlank a = false := fun a h => named a (hperm.mem_iff.1 h)
    have hproblem' := batchProblem?_eq_none hnonempty (hperm.length_eq ▸ small) hnamed
    exact (hamounts abilities hproblem).toOption_eq (hamounts l hproblem') hperm
  · exact (gives_checkBatch calm hproblem s rfl).2

/-- A reader and a file that may be shared by anyone and deleted by no one. -/
theorem checkBatch_amounts_archive :
    let policy : Policy Strand := ⟨["share", "delete"], fun _ _ => .defer, fun _ action _ =>
      if action = "share" then .allow else .denyBecause "archived"⟩
    let v : Service Strand := ⟨⟨.ofList [], 25⟩, ⟨.insert .empty "file" policy⟩, {}⟩
    let reader : AssignmentStore := ⟨.insert .empty 1 ⟨"reader", .insert .empty "read"⟩,
      .insert .empty 7 [⟨1, rootId⟩]⟩
    let s : Scene := ⟨⟨{ World.new with assignments := reader }, none⟩, .empty, {}, .empty⟩
    let file : Strand := ⟨⟨"file", 1⟩, []⟩
    let abilities := ["read", "file:delete", "file:share", "read"]
    ∃ b, ((checkBatch v 7 abilities (.object file)).runFrom s).1 = .ok b ∧ b.total = 4 ∧
      ["read", "file:delete", "file:share", "write"].map b.allowed? =
        [some true, some false, some true, none] := by
  intro policy v reader s file abilities
  have hnonempty : abilities ≠ [] := by decide
  obtain ⟨hamounts, -⟩ := checkBatch_amounts (s := s) v 7 (.object file) rfl hnonempty
    (by decide) (by decide +kernel)
  obtain ⟨b, hb⟩ := hamounts.ok_iff.2 (by decide +kernel)
  refine ⟨b, hb, hamounts.total b hb, ?_⟩
  simp only [List.map_cons, List.map_nil, hamounts.answers b hb]
  decide +kernel

end Operations

end Clearance
