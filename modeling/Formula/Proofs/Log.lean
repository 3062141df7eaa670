import Formula.Log

/-!
What levels let through. Where records are written by the calls of a logger, a lower level gets those
records of a higher one that it reaches, in their order, and nothing else.
-/

set_option autoImplicit false

namespace Formula

/-- The level that a record requires by its class. What general information requires is up to its
caller. -/
def Severity.required (general : Level) : Severity → Level
  | .debug => .verbose
  | .info => general
  | .warning => .minimal

namespace Level

variable {low high : Level}

def hears (level general : Level) (record : Record) : Bool :=
  level.reaches (record.severity.required general)

theorem reaches_trans {required : Level} (lower : high.reaches low = true)
    (enough : low.reaches required = true) : high.reaches required = true := by
  simp only [reaches, decide_eq_true_eq] at lower enough ⊢
  omega

/-- A lower level hears of a record exactly if it writes the record itself. -/
theorem filter_write {general : Level} (lower : high.reaches low = true) (record : Record) :
    (high.write (record.severity.required general) record).filter (low.hears general) =
      low.write (record.severity.required general) record := by
  unfold write
  cases enough : low.reaches (record.severity.required general) with
  | true =>
      rw [if_pos (reaches_trans lower enough), if_pos rfl]
      exact List.filter_cons_of_pos enough
  | false =>
      rw [if_neg Bool.false_ne_true]
      split
      · exact List.filter_cons_of_neg (Bool.eq_false_iff.1 enough)
      · rfl

theorem severity_of_mem_write {level required : Level} {record other : Record}
    (written : other ∈ level.write required record) : other.severity = record.severity := by
  unfold write at written
  split at written
  · rw [List.mem_singleton.1 written]
  · cases written

end Level

/-- What is written at each level by the calls of a logger, one after the other. General information
requires one level throughout, and there are warnings only where they are due. -/
inductive Writes (general : Level) (warns : Prop) : (Level → List Record) → Prop
  | nothing : Writes general warns fun _ => []
  | debug (text : String) : Writes general warns fun level => level.debug text
  | info (text : String) : Writes general warns fun level => level.info general text
  | warning (text : String) (due : warns) : Writes general warns fun level => level.warning text
  | append {first second : Level → List Record} (earlier : Writes general warns first)
      (later : Writes general warns second) :
      Writes general warns fun level => first level ++ second level

namespace Writes

variable {general : Level} {warns : Prop} {records : Level → List Record}

theorem mono {more : Prop} (implied : warns → more) (writes : Writes general warns records) :
    Writes general more records := by
  induction writes with
  | nothing => exact .nothing
  | debug text => exact .debug text
  | info text => exact .info text
  | warning text due => exact .warning text (implied due)
  | append _ _ earlier later => exact .append earlier later

theorem flatMap {α : Type} {each : Level → α → List Record} (items : List α)
    (writes : ∀ item ∈ items, Writes general warns fun level => each level item) :
    Writes general warns fun level => items.flatMap (each level) := by
  induction items with
  | nil => exact .nothing
  | cons item rest ih =>
      have later := ih fun other inside => writes other (List.mem_cons_of_mem item inside)
      exact .append (writes item List.mem_cons_self) later

/-- A lower level gets what it reaches of what a higher one gets. -/
theorem filter (writes : Writes general warns records) {low high : Level}
    (lower : high.reaches low = true) :
    (records high).filter (low.hears general) = records low := by
  induction writes with
  | nothing => rfl
  | debug text => exact Level.filter_write lower ⟨.debug, "DEBUG: " ++ text⟩
  | info text => exact Level.filter_write lower ⟨.info, text⟩
  | warning text => exact Level.filter_write lower ⟨.warning, text⟩
  | append _ _ earlier later => rw [List.filter_append, earlier, later]

theorem not_warning (writes : Writes general warns records) (never : ¬ warns) {level : Level}
    {record : Record} (written : record ∈ records level) : record.severity ≠ .warning := by
  induction writes with
  | nothing => cases written
  | debug text =>
      rw [Level.severity_of_mem_write written]
      exact nofun
  | info text =>
      rw [Level.severity_of_mem_write written]
      exact nofun
  | warning text due => exact absurd due never
  | append _ _ earlier later =>
      rcases List.mem_append.1 written with first | second
      · exact earlier first
      · exact later second

end Writes

end Formula
