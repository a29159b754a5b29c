import Covenant.Proofs.Location
import Covenant.Proofs.Rendering

namespace Covenant.Validation

open Json

/-- How a step is written in a path. -/
def Step.text : Step → String
  | .field name => "." ++ name
  | .item i => "[" ++ toString i ++ "]"

theorem Step.extend_eq (path : String) (step : Step) : step.extend path = path ++ step.text := by
  cases step <;> simp [Step.extend, Step.text, fieldPath, itemPath, String.append_assoc, toString]

theorem pathAlong_eq (path : String) (steps : List Step) :
    pathAlong path steps = path ++ String.join (steps.map Step.text) := by
  induction steps generalizing path with
  | nil => simp [pathAlong]
  | cons step rest ih =>
    rw [pathAlong, List.foldl_cons, ← pathAlong, ih, Step.extend_eq, List.map_cons,
      String.join_cons, String.append_assoc]

/-- The steps lead from a value of a type to another, through declared fields that objects have and
through elements of arrays. -/
inductive At : FieldType → Value → List Step → FieldType → Value → Prop
  | here (t : FieldType) (v : Value) : At t v [] t v
  | item {item t : FieldType} {items : List Value} {i : Nat} {x w : Value} {steps : List Step}
      (hx : items[i]? = some x) (h : At item x steps t w) :
      At (.list item) (.array items) (.item i :: steps) t w
  | field {s : RecordSchema} {u t : FieldType} {members : Members} {f : String} {x w : Value}
      {steps : List Step} (hf : s.fieldType? f = some u) (hx : members.get? f = some x)
      (h : At u x steps t w) :
      At (.record s) (.object members) (.field f :: steps) t w

/-- The value itself is not of the kind that the type needs, whatever it holds. -/
def WrongKind : FieldType → Value → Prop
  | .integer, v => ∃ message, coerceInteger v = .error message
  | .text, _ => False
  | .list _, v => ∀ items, v ≠ .array items
  | .record _, v => ∀ members, v ≠ .object members

/-- The value fails its type at the position: what is there is of the wrong kind, or it should be a
declared field and the object does not have it. -/
inductive Fails : FieldType → Value → List Step → Prop
  | kind {t : FieldType} {v : Value} (h : WrongKind t v) : Fails t v []
  | absent {s : RecordSchema} {members : Members} {f : String} (hf : s.declares f = true)
      (hm : members.get? f = none) : Fails (.record s) (.object members) [.field f]
  | item {item : FieldType} {items : List Value} {i : Nat} {x : Value} {steps : List Step}
      (hx : items[i]? = some x) (h : Fails item x steps) :
      Fails (.list item) (.array items) (.item i :: steps)
  | field {s : RecordSchema} {t : FieldType} {members : Members} {f : String} {x : Value}
      {steps : List Step} (hf : s.fieldType? f = some t) (hx : members.get? f = some x)
      (h : Fails t x steps) : Fails (.record s) (.object members) (.field f :: steps)

/-- The first position lies in an earlier field, or in an earlier element, than the second. -/
inductive Before : FieldType → List Step → List Step → Prop
  | items {item : FieldType} {i j : Nat} {p q : List Step} (hij : i < j) :
      Before (.list item) (.item i :: p) (.item j :: q)
  | fields {s : RecordSchema} {f g : String} {p q : List Step}
      (hfg : s.fieldNames.idxOf f < s.fieldNames.idxOf g) :
      Before (.record s) (.field f :: p) (.field g :: q)
  | inItem {item : FieldType} {i : Nat} {p q : List Step} (h : Before item p q) :
      Before (.list item) (.item i :: p) (.item i :: q)
  | inField {s : RecordSchema} {t : FieldType} {f : String} {p q : List Step}
      (hf : s.fieldType? f = some t) (h : Before t p q) :
      Before (.record s) (.field f :: p) (.field f :: q)

/-- The order of a depth-first walk: what holds a position comes before it, and so does what lies
in earlier fields and elements. -/
def Precedes (type : FieldType) (p q : List Step) : Prop :=
  (p <+: q ∧ p ≠ q) ∨ Before type p q

namespace Before

variable {type : FieldType} {p q : List Step}

theorem asymm (h : Before type p q) : ¬Before type q p := by
  induction h with
  | items hij =>
    rintro (hji | - | -)
    · exact Nat.lt_asymm hij hji
    · exact Nat.lt_irrefl _ hij
  | fields hfg =>
    rintro (- | hgf | - | -)
    · exact Nat.lt_asymm hfg hgf
    · exact Nat.lt_irrefl _ hfg
  | inItem h ih =>
    rintro (hii | - | h')
    · exact Nat.lt_irrefl _ hii
    · exact ih h'
  | inField hf h ih =>
    rintro (- | hff | - | ⟨hf', h'⟩)
    · exact Nat.lt_irrefl _ hff
    · rw [hf, Option.some.injEq] at hf'
      exact ih (hf' ▸ h')

theorem irrefl : ¬Before type p p := fun h => h.asymm h

theorem not_isPrefix (h : Before type p q) : ¬q <+: p := by
  induction h with
  | items hij => simp [List.cons_prefix_cons, Nat.ne_of_gt hij]
  | fields hfg =>
    rw [List.cons_prefix_cons]
    rintro ⟨hgf, -⟩
    rw [Step.field.inj hgf] at hfg
    exact Nat.lt_irrefl _ hfg
  | inItem h ih => simpa [List.cons_prefix_cons] using ih
  | inField hf h ih => simpa [List.cons_prefix_cons] using ih

theorem append (h : Before type p q) (rest : List Step) : Before type (p ++ rest) q := by
  induction h with
  | items hij => exact .items hij
  | fields hfg => exact .fields hfg
  | inItem h ih => exact .inItem ih
  | inField hf h ih => exact .inField hf ih

end Before

theorem At.fails {type t : FieldType} {v w : Value} {steps rest : List Step}
    (h : At type v steps t w) (hw : Fails t w rest) : Fails type v (steps ++ rest) := by
  induction h with
  | here => exact hw
  | item hx _ ih => exact .item hx (ih hw)
  | field hf hx _ ih => exact .field hf hx (ih hw)

theorem fails_iff {type : FieldType} {v : Value} {steps : List Step} :
    Fails type v steps ↔
      (∃ t w, At type v steps t w ∧ WrongKind t w) ∨
      ∃ (parent : List Step) (s : RecordSchema) (members : Members) (f : String),
        steps = parent ++ [.field f] ∧
        At type v parent (.record s) (.object members) ∧ s.declares f = true ∧
        members.get? f = none := by
  constructor
  · intro h
    induction h with
    | kind h => exact .inl ⟨_, _, .here _ _, h⟩
    | absent hf hm => exact .inr ⟨[], _, _, _, rfl, .here _ _, hf, hm⟩
    | item hx _ ih =>
      obtain ⟨t, w, hw, hk⟩ | ⟨parent, s, members, f, rfl, hp, hf, hm⟩ := ih
      · exact .inl ⟨t, w, .item hx hw, hk⟩
      · exact .inr ⟨_ :: parent, s, members, f, rfl, .item hx hp, hf, hm⟩
    | field hf' hx _ ih =>
      obtain ⟨t, w, hw, hk⟩ | ⟨parent, s, members, f, rfl, hp, hf, hm⟩ := ih
      · exact .inl ⟨t, w, .field hf' hx hw, hk⟩
      · exact .inr ⟨_ :: parent, s, members, f, rfl, .field hf' hx hp, hf, hm⟩
  · rintro (⟨t, w, hw, hk⟩ | ⟨parent, s, members, f, rfl, hp, hf, hm⟩)
    · simpa using hw.fails (.kind hk)
    · exact hp.fails (.absent hf hm)

theorem At.declaresOnce {type t : FieldType} {v w : Value} {steps : List Step}
    (h : At type v steps t w) (declared : type.DeclaresOnce) : t.DeclaresOnce := by
  induction h with
  | here => exact declared
  | item _ _ ih =>
    cases declared with
    | list h => exact ih h
  | @field s _ _ _ _ _ _ _ hf _ _ ih =>
    obtain ⟨once, types⟩ := FieldType.declaresOnce_record.mp declared
    let schema : DeclaredSchema := ⟨s, once⟩
    exact ih (types (_, _) (schema.fieldType_eq_some.mp hf))

theorem acceptsFields_get {fields : List (String × FieldType)} {members : Members}
    (h : AcceptsFields fields members) {f : String} {t : FieldType}
    (hf : fields.lookup f = some t) : ∃ x, members.get? f = some x ∧ t.Accepts x := by
  induction fields with
  | nil => simp at hf
  | cons e rest ih =>
    rw [Entries.lookup_cons_ite] at hf
    split at hf
    · next he =>
      cases hf
      rw [eq_of_beq he]
      exact h.1
    · exact ih h.2 hf

theorem accepts_get {s : RecordSchema} {members : Members}
    (h : (FieldType.record s).Accepts (.object members)) {f : String} {t : FieldType}
    (hf : s.fieldType? f = some t) : ∃ x, members.get? f = some x ∧ t.Accepts x := by
  obtain ⟨name, description, fields⟩ := s
  obtain ⟨_, ⟨rfl⟩, hfields⟩ := h
  exact acceptsFields_get hfields hf

theorem Fails.not_accepts {type : FieldType} {v : Value} {steps : List Step}
    (h : Fails type v steps) : ¬type.Accepts v := by
  induction h with
  | @kind t v h =>
    intro ha
    cases t with
    | integer =>
      obtain ⟨n, hn⟩ := ha
      obtain ⟨message, hm⟩ := h
      simp [hm] at hn
    | text => exact h
    | list item =>
      obtain ⟨items, hv, -⟩ := ha
      exact h items hv
    | record s =>
      obtain ⟨name, description, fields⟩ := s
      obtain ⟨members, hv, -⟩ := ha
      exact h members hv
  | absent hf hm =>
    intro ha
    obtain ⟨t, ht⟩ := Option.isSome_iff_exists.mp hf
    obtain ⟨x, hx, -⟩ := accepts_get ha ht
    simp [hm] at hx
  | item hx _ ih =>
    rintro ⟨_, ⟨rfl⟩, hitems⟩
    exact ih (hitems _ (List.mem_of_getElem? hx))
  | field hf hx _ ih =>
    intro ha
    obtain ⟨y, hy, hya⟩ := accepts_get ha hf
    rw [hx, Option.some.injEq] at hy
    exact ih (hy ▸ hya)

/-- The value fails at the position, and wherever else it fails comes later. -/
def FailsFirst (type : FieldType) (v : Value) (steps : List Step) : Prop :=
  Fails type v steps ∧ ∀ other, Fails type v other → other = steps ∨ Before type steps other

def AcceptedBefore (fields : List (String × FieldType)) (members : Members) (f : String) : Prop :=
  ∀ g u, fields.lookup g = some u → (fields.map (·.1)).idxOf g < (fields.map (·.1)).idxOf f →
    ∃ x, members.get? g = some x ∧ u.Accepts x

namespace FailsFirst

theorem kind {type : FieldType} {v : Value} (h : WrongKind type v) : FailsFirst type v [] := by
  refine ⟨.kind h, ?_⟩
  rintro _ (- | - | - | -)
  · exact .inl rfl
  · exact absurd rfl (h _)
  · exact absurd rfl (h _)
  · exact absurd rfl (h _)

theorem item {item : FieldType} {items : List Value} {i : Nat} {x : Value} {steps : List Step}
    (hx : items[i]? = some x) (hbefore : ∀ j y, j < i → items[j]? = some y → item.Accepts y)
    (h : FailsFirst item x steps) : FailsFirst (.list item) (.array items) (.item i :: steps) := by
  refine ⟨.item hx h.1, ?_⟩
  rintro _ (⟨hk⟩ | - | ⟨hy, hother⟩ | -)
  · exact absurd rfl (hk items)
  · next j y rest =>
    obtain hji | rfl | hij := Nat.lt_trichotomy j i
    · exact absurd (hbefore j y hji hy) hother.not_accepts
    · rw [hx, Option.some.injEq] at hy
      subst hy
      exact (h.2 rest hother).imp (congrArg _) .inItem
    · exact .inr (.items hij)

/-- An object fails at a declared field or inside it, and no earlier than where the fields before it
stop being accepted. -/
theorem record_cases {s : RecordSchema} {members : Members} {f : String} {other : List Step}
    (hbefore : AcceptedBefore s.fields members f)
    (h : Fails (.record s) (.object members) other) :
    ∃ g u rest, other = .field g :: rest ∧ s.fieldType? g = some u ∧
      (g = f ∨ s.fieldNames.idxOf f < s.fieldNames.idxOf g) ∧
      ((members.get? g = none ∧ rest = []) ∨ ∃ x, members.get? g = some x ∧ Fails u x rest) := by
  obtain ⟨g, u, rest, rfl, hg, hfails⟩ : ∃ g u rest, other = .field g :: rest ∧
      s.fieldType? g = some u ∧
      ((members.get? g = none ∧ rest = []) ∨ ∃ x, members.get? g = some x ∧ Fails u x rest) := by
    rcases h with hk | ⟨hg, hm⟩ | - | ⟨hg, hx, hother⟩
    · exact absurd rfl (hk members)
    · obtain ⟨u, hu⟩ := Option.isSome_iff_exists.mp hg
      exact ⟨_, u, [], rfl, hu, .inl ⟨hm, rfl⟩⟩
    · exact ⟨_, _, _, rfl, hg, .inr ⟨_, hx, hother⟩⟩
  refine ⟨g, u, rest, rfl, hg, ?_, hfails⟩
  obtain hgf | heq | hfg := Nat.lt_trichotomy (s.fieldNames.idxOf g) (s.fieldNames.idxOf f)
  · obtain ⟨x, hx, ha⟩ := hbefore g u hg hgf
    obtain ⟨hm, -⟩ | ⟨y, hy, hother⟩ := hfails
    · simp [hx] at hm
    · rw [hx, Option.some.injEq] at hy
      exact absurd (hy ▸ ha) hother.not_accepts
  · exact .inl ((List.idxOf_inj (RecordSchema.mem_fieldNames hg)).mp heq)
  · exact .inr hfg

theorem absent {s : RecordSchema} {members : Members} {f : String} {t : FieldType}
    (hf : s.fieldType? f = some t) (hbefore : AcceptedBefore s.fields members f)
    (hm : members.get? f = none) : FailsFirst (.record s) (.object members) [.field f] := by
  refine ⟨.absent (RecordSchema.declares_of_fieldType hf) hm, ?_⟩
  intro other hother
  obtain ⟨g, u, rest, rfl, -, rfl | hfg, hfails⟩ := record_cases hbefore hother
  · obtain ⟨-, rfl⟩ | ⟨x, hx, -⟩ := hfails
    · exact .inl rfl
    · simp [hm] at hx
  · exact .inr (.fields hfg)

theorem field {s : RecordSchema} {members : Members} {f : String} {t : FieldType} {x : Value}
    {steps : List Step} (hf : s.fieldType? f = some t)
    (hbefore : AcceptedBefore s.fields members f) (hx : members.get? f = some x)
    (h : FailsFirst t x steps) :
    FailsFirst (.record s) (.object members) (.field f :: steps) := by
  refine ⟨.field hf hx h.1, ?_⟩
  intro other hother
  obtain ⟨g, u, rest, rfl, hg, rfl | hfg, hfails⟩ := record_cases hbefore hother
  · obtain ⟨hm, -⟩ | ⟨y, hy, hinside⟩ := hfails
    · simp [hx] at hm
    · rw [hx, Option.some.injEq] at hy
      rw [hf, Option.some.injEq] at hg
      subst hy hg
      exact (h.2 rest hinside).imp (congrArg _) (.inField hf)
  · exact .inr (.fields hfg)

end FailsFirst

theorem AcceptedBefore.cons {rest : List (String × FieldType)} {members : Members} {f g : String}
    {t : FieldType} {x : Value} (hx : members.get? f = some x) (ha : t.Accepts x) (hfg : f ≠ g)
    (h : AcceptedBefore rest members g) : AcceptedBefore ((f, t) :: rest) members g := by
  intro k u hk hidx
  rw [Entries.lookup_cons_ite] at hk
  split at hk
  · next he =>
    cases hk
    rw [eq_of_beq he]
    exact ⟨x, hx, ha⟩
  · next he =>
    have hfk : f ≠ k := fun hfk => he (beq_iff_eq.mpr hfk.symm)
    rw [List.map_cons, List.idxOf_cons_ne _ hfk, List.idxOf_cons_ne _ hfg] at hidx
    exact h k u hk (Nat.lt_of_succ_lt_succ hidx)

/-- Whatever problem is reported, its path leads to the first failure. -/
def LocatesFirst (type : FieldType) : Prop :=
  ∀ path v p, validateAt path type v = .error p →
    ∃ steps, p.path = pathAlong path steps ∧ FailsFirst type v steps

theorem validateFieldsAt_first {fields : List (String × FieldType)}
    (once : (fields.map (·.1)).Nodup) (types : ∀ e ∈ fields, LocatesFirst e.2) {path : String}
    {members : Members} {p : Problem} (h : validateFieldsAt path fields members = .error p) :
    ∃ f t steps, fields.lookup f = some t ∧ AcceptedBefore fields members f ∧
      p.path = pathAlong path (.field f :: steps) ∧
      ((members.get? f = none ∧ steps = []) ∨
        ∃ x, members.get? f = some x ∧ FailsFirst t x steps) := by
  induction fields with
  | nil => simp [validateFieldsAt] at h
  | cons e rest ih =>
    obtain ⟨f, t⟩ := e
    obtain ⟨hnew, once⟩ := List.nodup_cons.mp once
    obtain ⟨hhere, hrest⟩ := List.forall_mem_cons.mp types
    have hlookup : ((f, t) :: rest).lookup f = some t := List.lookup_cons_self
    have hnone : AcceptedBefore ((f, t) :: rest) members f := by simp [AcceptedBefore]
    cases hf : members.get? f with
    | none =>
      simp only [validateFieldsAt, hf, Except.error.injEq] at h
      subst h
      exact ⟨f, t, [], hlookup, hnone, rfl, .inl ⟨hf, rfl⟩⟩
    | some v =>
      simp only [validateFieldsAt, hf, Outcome.bind_eq_error] at h
      obtain h | ⟨d, hok, h | ⟨ds, -, h⟩⟩ := h
      · obtain ⟨steps, hpath, hfirst⟩ := hhere (fieldPath path f) v p h
        exact ⟨f, t, steps, hlookup, hnone, hpath, .inr ⟨v, hf, hfirst⟩⟩
      · obtain ⟨g, u, steps, hg, hbefore, hpath, hm⟩ := ih once hrest h
        have hfg : f ≠ g := fun he => hnew (he ▸ Entries.lookup_isSome.mp (hg ▸ rfl))
        have ha : t.Accepts v := (FieldType.accepts_iff _).mpr ⟨d, hok⟩
        refine ⟨g, u, steps, ?_, hbefore.cons hf ha hfg, hpath, hm⟩
        rw [Entries.lookup_cons_ite, if_neg (by simpa using hfg.symm), hg]
      · exact absurd h Outcome.pure_ne_error

theorem locatesFirst_record (s : DeclaredSchema) (types : ∀ e ∈ s.fields, LocatesFirst e.2) :
    LocatesFirst (.record s) := by
  intro path v p h
  obtain ⟨⟨name, description, fields⟩, once⟩ := s
  rw [validateAt, Outcome.map_eq_error] at h
  cases v with
  | object members =>
    rw [validateRecordAt, Outcome.map_eq_error] at h
    obtain ⟨f, t, steps, hf, hbefore, hpath, hm⟩ := validateFieldsAt_first once types h
    refine ⟨.field f :: steps, hpath, ?_⟩
    obtain ⟨hm, rfl⟩ | ⟨x, hx, hfirst⟩ := hm
    · exact .absent hf hbefore hm
    · exact .field hf hbefore hx hfirst
  | _ =>
    cases h
    exact ⟨[], rfl, .kind (by simp [WrongKind])⟩

theorem locatesFirst_list {item : FieldType} (hitem : LocatesFirst item) :
    LocatesFirst (.list item) := by
  intro path v p h
  cases v with
  | array items =>
    rw [validateAt, Outcome.map_eq_error] at h
    obtain ⟨k, x, hx, hp, hbefore⟩ := eachItem_error h
    obtain ⟨steps, hpath, hfirst⟩ := hitem (itemPath path (0 + k)) x p hp
    rw [Nat.zero_add] at hpath
    refine ⟨.item k :: steps, hpath, .item hx ?_ hfirst⟩
    intro j y hj hy
    exact (FieldType.accepts_iff _).mpr (hbefore j y hj hy)
  | _ =>
    cases h
    exact ⟨[], rfl, .kind (by simp [WrongKind])⟩

theorem locatesFirst (type : DeclaredType) : LocatesFirst type := by
  obtain ⟨type, once⟩ := type
  induction once with
  | integer =>
    intro path v p h
    cases hv : coerceInteger v with
    | ok n => simp [validateAt, hv] at h
    | error message =>
      simp only [validateAt, hv, Except.error.injEq] at h
      subst h
      exact ⟨[], rfl, .kind ⟨message, hv⟩⟩
  | text =>
    intro path v p h
    simp [validateAt] at h
  | list _ ih => exact locatesFirst_list ih
  | @record s once _ ih => exact locatesFirst_record ⟨s, once⟩ ih

theorem exists_fails (type : DeclaredType) {v : Value} (h : ¬type.1.Accepts v) :
    ∃ steps, Fails type v steps := by
  obtain ⟨p, hp⟩ := (FieldType.not_accepts_iff rootPath).mp h
  obtain ⟨steps, -, hfirst⟩ := locatesFirst type rootPath v p hp
  exact ⟨steps, hfirst.1⟩

namespace FailsFirst

variable {type : FieldType} {v : Value} {steps other : List Step}

theorem not_fails (h : FailsFirst type v steps) (ho : Precedes type other steps) :
    ¬Fails type v other := by
  intro hother
  obtain rfl | hbefore := h.2 other hother
  · obtain ⟨-, hne⟩ | hself := ho
    · exact hne rfl
    · exact hself.irrefl
  · obtain ⟨hholds, -⟩ | hearlier := ho
    · exact hbefore.not_isPrefix hholds
    · exact hbefore.asymm hearlier

theorem accepts {type : DeclaredType} (h : FailsFirst type v steps) (ho : Before type other steps)
    {t : FieldType} {w : Value} (hat : At type v other t w) : t.Accepts w := by
  by_contra hw
  obtain ⟨rest, hrest⟩ := exists_fails ⟨t, hat.declaresOnce type.2⟩ hw
  -- whatever fails below the earlier position comes before the first failure
  exact h.not_fails (.inr (ho.append rest)) (hat.fails hrest)

end FailsFirst

/-- The path of a problem is spelled by a position at which the value fails, by the wrong kind or by
a field that is absent. Nothing that precedes it fails, what lies in earlier fields and elements is
accepted, and all other failures lie in later ones. -/
theorem first_failure_reported (type : DeclaredType) {v : Value} {p : Problem}
    (h : validate type v = .error p) :
    ∃ steps, p.path = "$" ++ String.join (steps.map Step.text) ∧
      ((∃ t w, At type v steps t w ∧ WrongKind t w) ∨
        ∃ (parent : List Step) (s : RecordSchema) (members : Members) (f : String),
          steps = parent ++ [.field f] ∧ At type v parent (.record s) (.object members) ∧
          s.declares f = true ∧ members.get? f = none) ∧
      (∀ other, Precedes type other steps → ¬Fails type v other) ∧
      (∀ other t w, Before type other steps → At type v other t w → ∃ d, validate t w = .ok d) ∧
      ∀ other, Fails type v other → other = steps ∨ Before type steps other := by
  obtain ⟨steps, hpath, hfirst⟩ := locatesFirst type rootPath v p h
  refine ⟨steps, ?_, fails_iff.mp hfirst.1, ?_, ?_, hfirst.2⟩
  · rw [hpath, pathAlong_eq, rootPath]
  · exact fun other ho => hfirst.not_fails ho
  · intro other t w ho hat
    exact (t.accepts_iff rootPath).mp (hfirst.accepts ho hat)

/-- Of the items of an order the second has no name, and the third is not an object. -/
theorem order_item_without_name :
    let item : RecordSchema := .ofDeclarations "Item" none [("id", .integer), ("name", .text)]
    let order : FieldType := .record <| .ofDeclarations "Order" none
      [("id", .integer), ("items", .list (.record item))]
    let sent : Value := .object
      [("id", .int 1),
        ("items", .array
          [.object [("id", .int 1), ("name", .string "pen")], .object [("id", .int 2)], .null])]
    order.DeclaresOnce ∧ validate order sent = .error ⟨"$.items[1].name", missingMessage⟩ ∧
      ∃ steps, "$.items[1].name" = "$" ++ String.join (steps.map Step.text) ∧
        Before order steps [.field "items", .item 2] := by
  intro item order sent
  have hitem : (FieldType.record item).DeclaresOnce :=
    .ofDeclarations _ _ (by simp)
  have horder : order.DeclaresOnce :=
    .ofDeclarations _ _ (by simp [hitem.list])
  have hsent : validate order sent = .error ⟨"$.items[1].name", missingMessage⟩ := rfl
  obtain ⟨steps, hpath, -, -, -, hfirst⟩ := first_failure_reported ⟨order, horder⟩ hsent
  have hthird : Fails order sent [.field "items", .item 2] :=
    .field rfl rfl (.item rfl (.kind (by simp [WrongKind])))
  refine ⟨horder, hsent, steps, hpath, (hfirst _ hthird).resolve_left ?_⟩
  rintro rfl
  exact absurd hpath (by decide)

end Covenant.Validation
