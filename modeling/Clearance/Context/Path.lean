import Clearance.Id

/-! Paths of the scope tree: the ids from the root down, each closed by a slash. -/
namespace Clearance.Path

/-- The pieces of a text that a slash closes, if nothing stands after the last slash. -/
def pieces? : List Char → Option (List (List Char))
  | [] => some []
  | c :: cs =>
    match pieces? cs with
    | none => none
    | some ps =>
      if c = '/' then some ([] :: ps)
      else match ps with
        | [] => none
        | p :: ps => some ((c :: p) :: ps)

/-- The ids on a path; there is at least one. -/
def read? (path : String) : Option (List ContextId) := do
  let ps ← pieces? path.toList
  if ps.isEmpty then none else ps.mapM Id.read?

def child (parent : String) (id : ContextId) : String := parent ++ Id.text id ++ "/"

def write (ids : List ContextId) : List Char := ids.flatMap fun id => Id.write id ++ ['/']

theorem pieces?_append {p : List Char} (hp : '/' ∉ p) (rest : List Char) :
    pieces? (p ++ '/' :: rest) = (pieces? rest).map (p :: ·) := by
  induction p with
  | nil => cases h : pieces? rest <;> simp [pieces?, h]
  | cons c p ih =>
    have hc : c ≠ '/' := fun h => hp (h ▸ List.mem_cons_self ..)
    rw [List.cons_append, pieces?, ih fun h => hp (List.mem_cons_of_mem _ h)]
    cases pieces? rest <;> simp [hc]

theorem slash_not_mem_write (id : ContextId) : '/' ∉ Id.write id := fun h => by
  rcases Text.mem_writeInteger h with h | h <;> revert h <;> decide

theorem pieces?_write (ids : List ContextId) : pieces? (write ids) = some (ids.map Id.write) := by
  induction ids with
  | nil => rfl
  | cons id ids ih =>
    have : write (id :: ids) = Id.write id ++ '/' :: write ids := by simp [write]
    rw [this, pieces?_append (slash_not_mem_write id), ih]
    rfl

theorem read?_write {ids : List ContextId} (h : ids ≠ []) :
    read? (String.ofList (write ids)) = some ids := by
  have hm : (ids.map Id.write).mapM Id.read? = some ids := by
    induction ids with
    | nil => rfl
    | cons id ids ih =>
      by_cases hi : ids = []
      · subst hi; simp [Id.read?_write]
      · simp [Id.read?_write, ih hi]
  simp [read?, pieces?_write, hm, h]

end Clearance.Path
