import Covenant.Text.Split

namespace Covenant

namespace Text

variable {sep : Char}

theorem splitAt_ne_nil (cs : List Char) : splitAt sep cs ≠ [] := by
  cases cs with
  | nil => simp [splitAt]
  | cons c rest =>
    rw [splitAt]
    split
    · simp
    · split <;> simp

theorem splitAt_append_cons (before after : List Char) :
    splitAt sep (before ++ sep :: after) = splitAt sep before ++ splitAt sep after := by
  induction before with
  | nil => simp [splitAt]
  | cons c before ih =>
    rw [List.cons_append, splitAt, splitAt, ih]
    by_cases hc : c = sep
    · rw [if_pos hc, if_pos hc, List.cons_append]
    · rw [if_neg hc, if_neg hc]
      cases hs : splitAt sep before with
      | nil => exact absurd hs (splitAt_ne_nil before)
      | cons part parts => rfl

theorem splitAt_of_notMem {part : List Char} (h : sep ∉ part) : splitAt sep part = [part] := by
  induction part with
  | nil => rfl
  | cons c part ih =>
    rw [List.mem_cons, not_or] at h
    obtain ⟨hc, hpart⟩ := h
    rw [splitAt, if_neg (Ne.symm hc), ih hpart]

theorem splitAt_append {part : List Char} (h : sep ∉ part) (rest : List Char) :
    splitAt sep (part ++ sep :: rest) = part :: splitAt sep rest := by
  rw [splitAt_append_cons, splitAt_of_notMem h, List.singleton_append]

theorem not_mem_of_mem_splitAt {cs part : List Char} (h : part ∈ splitAt sep cs) : sep ∉ part := by
  induction cs generalizing part with
  | nil => simp_all [splitAt]
  | cons c rest ih =>
    unfold splitAt at h
    split at h
    · rcases List.mem_cons.mp h with rfl | h
      · simp
      · exact ih h
    · next hc =>
      split at h
      · next hnil => simp_all [Ne.symm hc]
      · next first parts hsplit =>
        rw [hsplit] at ih
        rcases List.mem_cons.mp h with rfl | h
        · exact List.not_mem_cons_of_ne_of_not_mem (Ne.symm hc) (ih List.mem_cons_self)
        · exact ih (List.mem_cons_of_mem _ h)

theorem modifyHead_cons_intercalate {α : Type} (sep : List α) (c : α) {parts : List (List α)}
    (h : parts ≠ []) :
    sep.intercalate (parts.modifyHead (c :: ·)) = c :: sep.intercalate parts := by
  match parts, h with
  | [part], _ => simp
  | part :: next :: rest, _ => simp [List.intercalate_cons_cons]

theorem intercalate_splitAt (sep : Char) (cs : List Char) :
    [sep].intercalate (splitAt sep cs) = cs := by
  induction cs with
  | nil => rfl
  | cons c rest ih =>
    rw [splitAt]
    cases hs : splitAt sep rest with
    | nil => exact absurd hs (splitAt_ne_nil rest)
    | cons part parts =>
      rw [hs] at ih
      split
      · next hc => rw [List.intercalate_cons_cons, ih, hc, List.nil_append, List.singleton_append]
      · exact (modifyHead_cons_intercalate [sep] c (List.cons_ne_nil part parts)).trans
          (congrArg _ ih)

theorem splitAt_intercalate {parts : List (List Char)} (hne : parts ≠ [])
    (h : ∀ part ∈ parts, sep ∉ part) : splitAt sep ([sep].intercalate parts) = parts := by
  induction parts with
  | nil => exact absurd rfl hne
  | cons part rest ih =>
    obtain ⟨hpart, hrest⟩ := List.forall_mem_cons.mp h
    cases rest with
    | nil => rw [List.intercalate_singleton, splitAt_of_notMem hpart]
    | cons next more =>
      rw [List.intercalate_cons_cons, List.append_assoc, List.singleton_append,
        splitAt_append hpart, ih (List.cons_ne_nil next more) hrest]

/-- The parts between pairs of the character, which are looked for from the left. -/
def splitAtPairs (sep : Char) : List Char → List (List Char)
  | [] => [[]]
  | [c] => [[c]]
  | c :: d :: rest =>
    if c = sep ∧ d = sep then [] :: splitAtPairs sep rest
    else (splitAtPairs sep (d :: rest)).modifyHead (c :: ·)

theorem splitAtPairs_ne_nil (cs : List Char) : splitAtPairs sep cs ≠ [] := by
  fun_induction splitAtPairs sep cs with
  | case1 => simp
  | case2 c => simp
  | case3 c d rest h ih => simp
  | case4 c d rest h ih => simpa using ih

theorem intercalate_splitAtPairs (sep : Char) (cs : List Char) :
    [sep, sep].intercalate (splitAtPairs sep cs) = cs := by
  fun_induction splitAtPairs sep cs with
  | case1 => rfl
  | case2 c => simp
  | case3 c d rest h ih =>
    obtain ⟨rfl, rfl⟩ := h
    cases hs : splitAtPairs d rest with
    | nil => exact absurd hs (splitAtPairs_ne_nil rest)
    | cons part parts => rw [List.intercalate_cons_cons, ← hs, ih]; rfl
  | case4 c d rest h ih =>
    rw [modifyHead_cons_intercalate _ c (splitAtPairs_ne_nil _), ih]

end Text

end Covenant
