import Covenant.Proofs.Extraction

namespace Covenant.Validation

open Json

/-- A step down into a value. -/
inductive Step where
  | field (name : String)
  | item (i : Nat)
deriving DecidableEq, Repr

def Step.extend (path : String) : Step → String
  | .field name => fieldPath path name
  | .item i => itemPath path i

/-- The path after the steps. -/
def pathAlong (path : String) (steps : List Step) : String := steps.foldl Step.extend path

/-- The second path is the first, or leads on from it. -/
def Within (path target : String) : Prop := ∃ steps, target = pathAlong path steps

namespace Within

theorem refl (path : String) : Within path path := ⟨[], rfl⟩

theorem of_step {path target : String} (step : Step) (h : Within (step.extend path) target) :
    Within path target := by
  obtain ⟨steps, rfl⟩ := h
  exact ⟨step :: steps, rfl⟩

end Within

mutual

theorem validateAt_within (path : String) :
    ∀ (type : FieldType) (v : Value) (p : Problem),
      validateAt path type v = .error p → Within path p.path
  | .integer, v, p, h => by
    cases hv : coerceInteger v with
    | ok n => simp [validateAt, hv] at h
    | error message =>
      simp only [validateAt, hv, Except.error.injEq] at h
      subst h
      exact .refl path
  | .text, v, p, h => by simp [validateAt] at h
  | .list item, v, p, h => by
    cases v with
    | array items =>
      rw [validateAt, Outcome.map_eq_error] at h
      obtain ⟨i, x, -, hx, -⟩ := eachItem_error h
      exact .of_step (.item (0 + i)) (validateAt_within (itemPath path (0 + i)) item x p hx)
    | _ =>
      cases h
      exact .refl path
  | .record s, v, p, h => by
    rw [validateAt, Outcome.map_eq_error] at h
    exact validateRecordAt_within path s v p h

theorem validateRecordAt_within (path : String) :
    ∀ (s : RecordSchema) (v : Value) (p : Problem),
      validateRecordAt path s v = .error p → Within path p.path
  | ⟨name, description, fields⟩, v, p, h => by
    cases v with
    | object members =>
      rw [validateRecordAt, Outcome.map_eq_error] at h
      exact validateFieldsAt_within path fields members p h
    | _ =>
      cases h
      exact .refl path

theorem validateFieldsAt_within (path : String) :
    ∀ (fields : List (String × FieldType)) (members : Members) (p : Problem),
      validateFieldsAt path fields members = .error p → Within path p.path
  | [], members, p, h => by simp [validateFieldsAt] at h
  | (f, t) :: rest, members, p, h => by
    cases hf : members.get? f with
    | none =>
      simp only [validateFieldsAt, hf, Except.error.injEq] at h
      subst h
      exact .of_step (.field f) (.refl _)
    | some v =>
      simp only [validateFieldsAt, hf, Outcome.bind_eq_error] at h
      rcases h with h | ⟨d, -, h | ⟨ds, -, h⟩⟩
      · exact .of_step (.field f) (validateAt_within (fieldPath path f) t v p h)
      · exact validateFieldsAt_within path rest members p h
      · exact absurd h Outcome.pure_ne_error

end

end Covenant.Validation
