import Formula.Settings

/-!
Requested settings. A field that there is not is reported before any other fault, and else the first
faulty field in the order of the fields; where there is none, the requested values are in the settings,
and those that were not requested stay.
-/

set_option autoImplicit false

namespace Formula.Settings

/-- What is wrong with requested names. -/
def namesFault? (unknown : List String) : Option Failure :=
  if unknown = [] then none else some (.wordless .unknownSetting)

def depthFault? : Field Int → Option Failure
  | .absent => none
  | .unusable => some (.wrongType .maxDepth)
  | .given n => if 0 < n then none else some (.wrongValue .maxDepth)

def fieldFault? {α : Type} (complaint : WrongType) : Field α → Option Failure
  | .unusable => some (.wrongType complaint)
  | .absent | .given _ => none

/-- What is wrong with the names, else with the first faulty field. -/
def Changes.fault? (changes : Changes) : Option Failure :=
  (namesFault? changes.unknown).or ((depthFault? changes.maxDepth).or
    ((fieldFault? .strictness changes.strict).or (fieldFault? .level changes.level)))

/-- The settings have the requested values, and those of other settings elsewhere. -/
structure Changes.Meets (changes : Changes) (before after : Settings) : Prop where
  maxDepth : (after.maxDepth : Int) = changes.maxDepth.value?.getD before.maxDepth
  strict : after.strict = changes.strict.value?.getD before.strict
  level : after.level = changes.level.value?.getD before.level

theorem checkNames_eq (unknown : List String) :
    checkNames unknown =
      match namesFault? unknown with
      | some failure => .error failure
      | none => .ok () := by
  cases unknown <;> rfl

theorem checkDepth_of_fault {current : { depth : Nat // 0 < depth }} {field : Field Int}
    {failure : Failure} (fault : depthFault? field = some failure) :
    checkDepth current field = .error failure := by
  cases field with
  | absent => cases fault
  | unusable =>
      cases fault
      rfl
  | given n =>
      rw [depthFault?] at fault
      split at fault
      · cases fault
      · next small =>
          cases fault
          rw [checkDepth, dif_neg (by omega)]

theorem checkDepth_of_sound (current : { depth : Nat // 0 < depth }) {field : Field Int}
    (sound : depthFault? field = none) :
    ∃ depth, checkDepth current field = .ok depth ∧
      (depth.val : Int) = field.value?.getD current.val := by
  cases field with
  | absent => exact ⟨current, rfl, rfl⟩
  | unusable => cases sound
  | given n =>
      rw [depthFault?] at sound
      split at sound
      · next positive =>
          have natural : 0 < n.toNat := by omega
          refine ⟨⟨n.toNat, natural⟩, dif_pos natural, ?_⟩
          exact Int.toNat_of_nonneg (by omega)
      · cases sound

theorem checkField_eq {α : Type} (complaint : WrongType) (current : α) (field : Field α) :
    checkField complaint current field =
      match fieldFault? complaint field with
      | some failure => .error failure
      | none => .ok (field.value?.getD current) := by
  cases field <;> rfl

section

variable {s : Settings} {changes : Changes}

theorem change_of_fault {failure : Failure} (fault : changes.fault? = some failure) :
    s.change changes = .error failure := by
  unfold change
  rw [Changes.fault?] at fault
  rw [checkNames_eq]
  cases names : namesFault? changes.unknown with
  | some unknown =>
      rw [names] at fault
      cases fault
      rfl
  | none =>
      rw [names, Option.none_or] at fault
      cases depth : depthFault? changes.maxDepth with
      | some first =>
          rw [depth] at fault
          cases fault
          rw [checkDepth_of_fault depth]
          rfl
      | none =>
          obtain ⟨_, checked, -⟩ := checkDepth_of_sound ⟨s.maxDepth, s.maxDepth_pos⟩ depth
          rw [depth, Option.none_or] at fault
          rw [checked, checkField_eq, checkField_eq]
          cases strict : fieldFault? .strictness changes.strict with
          | some second =>
              rw [strict] at fault
              cases fault
              rfl
          | none =>
              rw [strict, Option.none_or] at fault
              rw [fault]
              rfl

theorem change_of_sound (sound : changes.fault? = none) :
    ∃ next, s.change changes = .ok next ∧ changes.Meets s next := by
  simp only [Changes.fault?, Option.or_eq_none_iff] at sound
  obtain ⟨names, depth, strict, level⟩ := sound
  obtain ⟨next, checked, depthMet⟩ := checkDepth_of_sound ⟨s.maxDepth, s.maxDepth_pos⟩ depth
  refine ⟨⟨next.val, changes.strict.value?.getD s.strict, changes.level.value?.getD s.level,
    next.property⟩, ?_, depthMet, rfl, rfl⟩
  unfold change
  rw [checkNames_eq, names, checked, checkField_eq, checkField_eq, strict, level]
  rfl

end

end Formula.Settings
