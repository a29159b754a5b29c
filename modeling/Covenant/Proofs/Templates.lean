import Covenant.Route.Template
import Mathlib.Data.List.Basic

namespace Covenant

theorem Segment.ofPiece_braced (name : String) :
    ofPiece ('\x7b' :: name.toList ++ ['\x7d']) = .parameter name := by
  simp [ofPiece]

namespace Segment

theorem ofPiece_eq_parameter {piece : List Char} {name : String} :
    ofPiece piece = .parameter name ↔ piece = '\x7b' :: name.toList ++ ['\x7d'] := by
  constructor
  · intro h
    unfold ofPiece at h
    split at h
    · next rest =>
      split at h
      · next hlast =>
        cases h
        have hrest := List.dropLast_append_getLast? _ (Option.mem_def.mpr hlast)
        rw [String.toList_ofList, List.cons_append, hrest]
      · cases h
    · cases h
  · rintro rfl
    exact ofPiece_braced name

theorem eq_toList_of_ofPiece {piece : List Char} {text : String} (h : ofPiece piece = .literal text) :
    piece = text.toList := by
  unfold ofPiece at h
  split at h
  · split at h
    · cases h
    · cases h
      rw [String.toList_ofList]
  · cases h
    rw [String.toList_ofList]

end Segment

namespace Template

/-- The piece of a template that stands for a parameter. -/
def braced (name : String) : List Char := '\x7b' :: name.toList ++ ['\x7d']

theorem name_ofPiece {piece : List Char} {name : String} :
    (Segment.ofPiece piece).name? = some name ↔ piece = braced name := by
  rw [braced, ← Segment.ofPiece_eq_parameter]
  cases Segment.ofPiece piece <;> simp [Segment.name?]

theorem mem_parameters {template name : String} :
    name ∈ parameters template ↔ braced name ∈ pieces template := by
  rw [parameters, segments, List.filterMap_map, List.mem_filterMap]
  simp [name_ofPiece]

/-- A piece in braces is not empty, so none is lost where empty pieces are left out. -/
theorem mentions_iff {template name : String} :
    mentions template name = true ↔ name ∈ parameters template := by
  rw [mem_parameters, pieces, List.mem_filter, mentions, List.contains_iff_mem]
  simp [braced]

theorem capture_lookup {segments : List Segment} {pieces : List String} {found c : Captures}
    (h : capture segments pieces found = some c) (f : String) :
    (c.lookup f).isSome = true ↔
      (found.lookup f).isSome = true ∨ f ∈ segments.filterMap Segment.name? := by
  -- over what was found so far, for a parameter adds to it before the rest is matched
  induction segments generalizing pieces found with
  | nil =>
    cases pieces with
    | nil => simp_all [capture]
    | cons => simp [capture] at h
  | cons segment rest ih =>
    cases pieces with
    | nil => cases segment <;> simp [capture] at h
    | cons piece more =>
      cases segment with
      | literal text =>
        simp only [capture, Option.ite_none_right_eq_some] at h
        rw [ih h.2]
        simp [Segment.name?]
      | parameter name =>
        rw [ih h, Entries.lookup_put]
        by_cases hf : f = name <;> simp [Segment.name?, hf]

theorem captures_lookup {template path : String} {c : Captures}
    (h : captures? template path = some c) (f : String) :
    (c.lookup f).isSome = true ↔ f ∈ parameters template := by
  simp [capture_lookup h, parameters]

end Template

end Covenant
