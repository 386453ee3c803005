import Clearance.Proofs.Settings.Valid
import Clearance.Proofs.Text.Lowercase
import Clearance.Settings.LogConfig
import Mathlib.Data.List.Basic

/-! The level of the log. Settings are checked by the small letters of every script, and the log
reads a level by those of ASCII or by its rank. Both find the same names, so that the log can be set
up wherever settings are valid. -/
namespace Clearance

theorem Text.natural?_eq_none {cs : List Char} (h : ∀ c ∈ cs, ¬c.isDigit = true) :
    natural? cs = none := by
  rw [natural?, if_neg]
  rintro ⟨hne, hall⟩
  obtain ⟨c, rest, rfl⟩ := List.exists_cons_of_ne_nil hne
  exact h c List.mem_cons_self (List.all_eq_true.1 hall c List.mem_cons_self)

namespace LogLevel

variable {s : String} {l : LogLevel}

theorem ascii_name (l : LogLevel) : ∀ c ∈ l.name.toList, c.toNat < 128 := by
  have hall : (l.name.toList.all fun c => c.toNat < 128) = true := by cases l <;> rfl
  intro c hc
  exact of_decide_eq_true (List.all_eq_true.1 hall c hc)

theorem mem_levelNames : s ∈ Settings.levelNames ↔ ∃ l : LogLevel, s = l.name := by
  constructor
  · intro h
    obtain ⟨l, -, hl⟩ := List.mem_map.1 h
    exact ⟨l, hl.symm⟩
  · rintro ⟨l, rfl⟩
    exact List.mem_map_of_mem (by cases l <;> decide +kernel)

/-- A name has neither a k nor a combining dot, so that its capitals are all in ASCII. -/
theorem lowerAscii_eq_name (h : Text.lower s = l.name) : Text.lowerAscii s = l.name := by
  have hname : ∀ c ∈ s.toList, ∀ d ∈ Text.lowerChar c, d ∈ l.name.toList := by
    intro c hc d hd
    rw [← h, Text.lower, String.toList_ofList]
    exact List.mem_flatMap_of_mem hc hd
  have hchar : ∀ c ∈ s.toList, Text.lowerChar c = [c.toLower] := by
    intro c hc
    apply Text.lowerChar_eq
    · rintro rfl
      exact absurd (hname _ hc 'k' (by decide +kernel)) (by cases l <;> decide +kernel)
    · rintro rfl
      exact absurd (hname _ hc '\u0307' (by decide +kernel)) (by cases l <;> decide +kernel)
  rw [← h, Text.lower, Text.lowerAscii, List.flatMap_congr hchar, List.map_eq_flatMap]

/-- What is a name in some ASCII case is read as this name, for it has no digits and is no rank. -/
theorem read?_of_lowerAscii (h : Text.lowerAscii s = l.name) : read? s = some l := by
  have hdigit : ∀ c ∈ s.toList, ¬c.isDigit = true := by
    intro c hc hdigit
    have hmem : c.toLower ∈ l.name.toList := by
      rw [← h, Text.lowerAscii, String.toList_ofList]
      exact List.mem_map_of_mem hc
    have hname : l.name.toList.any Char.isDigit = false := by cases l <;> rfl
    rw [Text.toLower_of_isDigit hdigit] at hmem
    exact List.any_eq_false.1 hname c hmem hdigit
  have hrank : ∀ cs ⊆ s.toList, Text.natural? cs = none := fun cs hcs =>
    Text.natural?_eq_none fun c hc => hdigit c (hcs hc)
  have hnamed : (LogLevel.all.find? fun l' => l'.name = Text.lowerAscii s) = some l := by
    rw [h]
    cases l <;> rfl
  unfold read?
  dsimp only
  rw [hrank _ ?_, hnamed]
  -- the digits of a rank are all of the text, or what follows its plus
  split
  · next cs heq => exact heq ▸ List.subset_cons_self ..
  · exact List.Subset.refl _

end LogLevel

namespace Settings

variable {s : Settings}

/-- Whatever its script, a level is valid if its small form is the name of one. -/
theorem lower_mem_levelNames {level : String} : Text.lower level ∈ levelNames ↔
    ∃ l : LogLevel, Text.Lowered level.toList l.name.toList := by
  rw [LogLevel.mem_levelNames]
  exact exists_congr fun l => Text.lower_eq_iff l.ascii_name

/-- With valid settings the log can be set up. The level that it reads is the one whose name is the
small form of the level that is set, the only one that there is. Other settings of the log leave
these valid as long as the small form of the level is the name of one. -/
theorem ofSettings_of_validate (h : s.validate = .ok ()) :
    (∃ l : LogLevel, LogConfig.ofSettings s.logging = .ok ⟨s.logging.json, l, s.logging.spans⟩ ∧
      l.name = Text.lower s.logging.level ∧
      ∀ t : String, Text.Lowered s.logging.level.toList t.toList ↔ t = l.name) ∧
    ∀ logging : Logging, { s with logging }.validate = .ok () ↔
      ∃ l : LogLevel, Text.Lowered logging.level.toList l.name.toList := by
  have hvalid := validate_eq_ok.1 h
  refine ⟨?_, fun logging => ?_⟩
  · obtain ⟨l, hl⟩ := LogLevel.mem_levelNames.1 hvalid.level
    refine ⟨l, ?_, hl.symm, Text.lowered_iff l.ascii_name hl⟩
    have hread := LogLevel.read?_of_lowerAscii (LogLevel.lowerAscii_eq_name hl)
    rw [LogConfig.ofSettings, hread]
  · rw [← lower_mem_levelNames, validate_eq_ok]
    constructor
    · exact fun hlogging => hlogging.level
    · exact fun hlevel => { hvalid with level := hlevel }

def mixedCase : Settings := { logging := { level := "WaRn", json := true } }

/-- The level is read, and the rank of another one, which the log could read, would not be valid. -/
theorem ofSettings_of_validate_mixedCase :
    mixedCase.validate = .ok () ∧
      LogConfig.ofSettings mixedCase.logging = .ok ⟨true, .warn, false⟩ ∧
      (∀ t : String, Text.Lowered "WaRn".toList t.toList ↔ t = "warn") ∧
      LogLevel.read? "3" = some .info ∧
      { mixedCase with logging := { level := "3" } }.validate ≠ .ok () := by
  have hvalid : mixedCase.validate = .ok () := by
    have hproblem : mixedCase.problem?.isNone = true := by decide +kernel
    exact validate_eq_ok.2 (problem?_eq_none.1 (Option.isNone_iff_eq_none.1 hproblem))
  obtain ⟨⟨l, hread, -, hlowered⟩, hothers⟩ := ofSettings_of_validate hvalid
  have hwarn : "warn" = l.name :=
    (hlowered "warn").1 ((Text.lower_eq_iff (LogLevel.ascii_name .warn)).1 (by decide +kernel))
  obtain rfl : l = .warn := by
    cases l with
    | warn => rfl
    | trace | debug | info | error => exact absurd hwarn (by decide +kernel)
  refine ⟨hvalid, hread, hlowered, by decide +kernel, fun hrank => ?_⟩
  have hmem := lower_mem_levelNames.2 ((hothers { level := "3" }).1 hrank)
  exact absurd hmem (by decide +kernel)

end Settings

end Clearance
