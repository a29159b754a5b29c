import Covenant.Proofs.Assembly
import Covenant.Proofs.Rendering
import Mathlib.Logic.Relation

namespace Covenant

open Json Validation

mutual

/-- The values are equal but for members of their objects that the type does not declare. -/
def FieldType.Alike : FieldType → Value → Value → Prop
  | .integer, v, w => v = w
  | .text, v, w => v = w
  | .list item, v, w =>
    v = w ∨ ∃ xs ys, v = .array xs ∧ w = .array ys ∧ List.Forall₂ item.Alike xs ys
  | .record s, v, w => s.Alike v w

def RecordSchema.Alike : RecordSchema → Value → Value → Prop
  | ⟨_, _, fields⟩, v, w =>
    v = w ∨ ∃ ms ns, v = .object ms ∧ w = .object ns ∧
      AlikeFields fields (Members.get? ms) (Members.get? ns)

/-- Every field is absent from both sources or has alike values in them. -/
def AlikeFields :
    List (String × FieldType) → (String → Option Value) → (String → Option Value) → Prop
  | [], _, _ => True
  | (f, t) :: rest, source, other =>
    Option.Rel t.Alike (source f) (other f) ∧ AlikeFields rest source other

end

theorem alikeFields_iff {fields : List (String × FieldType)}
    {source other : String → Option Value} :
    AlikeFields fields source other ↔
      ∀ e ∈ fields, Option.Rel e.2.Alike (source e.1) (other e.1) := by
  induction fields with
  | nil => simp [AlikeFields]
  | cons e rest ih => rw [AlikeFields, ih, List.forall_mem_cons]

theorem RecordSchema.alike_iff {s : RecordSchema} {v w : Value} :
    s.Alike v w ↔ v = w ∨ ∃ ms ns, v = .object ms ∧ w = .object ns ∧
      ∀ e ∈ s.fields, Option.Rel e.2.Alike (Members.get? ms e.1) (Members.get? ns e.1) := by
  obtain ⟨name, description, fields⟩ := s
  rw [RecordSchema.Alike]
  simp only [alikeFields_iff]

theorem FieldType.Alike.refl (type : FieldType) (v : Value) : type.Alike v v := by
  cases type with
  | integer => rfl
  | text => rfl
  | list item => exact .inl rfl
  | record s => exact RecordSchema.alike_iff.mpr (.inl rfl)

theorem forall₂_trans {R : Value → Value → Prop} (h : ∀ x y z, R x y → R y z → R x z)
    {xs ys zs : List Value} (hxy : List.Forall₂ R xs ys) (hyz : List.Forall₂ R ys zs) :
    List.Forall₂ R xs zs := by
  induction hxy generalizing zs with
  | nil => exact hyz
  | cons hx _ ih =>
    cases hyz with
    | cons hy hrest => exact .cons (h _ _ _ hx hy) (ih hrest)

mutual

theorem FieldType.Alike.trans :
    ∀ (type : FieldType) (u v w : Value), type.Alike u v → type.Alike v w → type.Alike u w
  | .integer, _, _, _, h, g => Eq.trans h g
  | .text, _, _, _, h, g => Eq.trans h g
  | .list item, u, v, w, h, g => by
    rcases h with rfl | ⟨xs, ys, rfl, rfl, h⟩
    · exact g
    · rcases g with rfl | ⟨_, zs, ⟨rfl⟩, rfl, g⟩
      · exact .inr ⟨xs, ys, rfl, rfl, h⟩
      · exact .inr ⟨xs, zs, rfl, rfl, forall₂_trans (FieldType.Alike.trans item) h g⟩
  | .record s, u, v, w, h, g => RecordSchema.Alike.trans s u v w h g

theorem RecordSchema.Alike.trans :
    ∀ (s : RecordSchema) (u v w : Value), s.Alike u v → s.Alike v w → s.Alike u w
  | ⟨_, _, fields⟩, u, v, w, h, g => by
    rcases h with rfl | ⟨ms, ns, rfl, rfl, h⟩
    · exact g
    · rcases g with rfl | ⟨_, os, ⟨rfl⟩, rfl, g⟩
      · exact .inr ⟨ms, ns, rfl, rfl, h⟩
      · exact .inr ⟨ms, os, rfl, rfl, AlikeFields.trans fields _ _ _ h g⟩

theorem AlikeFields.trans :
    ∀ (fields : List (String × FieldType)) (source other third : String → Option Value),
      AlikeFields fields source other → AlikeFields fields other third →
      AlikeFields fields source third
  | [], _, _, _, _, _ => trivial
  | (f, t) :: rest, source, other, third, ⟨h, hrest⟩, ⟨g, grest⟩ => by
    refine ⟨?_, AlikeFields.trans rest source other third hrest grest⟩
    revert h g
    generalize source f = a
    generalize other f = b
    generalize third f = c
    intro h g
    cases h with
    | none => exact g
    | some h =>
      cases g with
      | some g => exact .some (FieldType.Alike.trans t _ _ _ h g)

end

/-- A change that the type does not see: the members that a record does not declare become others, or
such a change is made further down, in an item or in a declared member. -/
inductive FieldType.Edit : FieldType → Value → Value → Prop
  | undeclared {s : RecordSchema} {ms ns : Members}
    (h : ∀ f ∈ s.fieldNames, Members.get? ms f = Members.get? ns f) :
    Edit (.record s) (.object ms) (.object ns)
  | item {t : FieldType} {v w : Value} (before after : List Value) (h : Edit t v w) :
    Edit (.list t) (.array (before ++ v :: after)) (.array (before ++ w :: after))
  | member {s : RecordSchema} {ms : Members} {f : String} {v w : Value}
    (hv : Members.get? ms f = some v) (h : ∀ t, (f, t) ∈ s.fields → Edit t v w) :
    Edit (.record s) (.object ms) (.object (Members.insert f w ms))

theorem optionRel_alike_refl (type : FieldType) (found : Option Value) :
    Option.Rel type.Alike found found := by
  cases found with
  | none => exact .none
  | some v => exact .some (.refl type v)

theorem FieldType.Edit.alike {type : FieldType} {v w : Value} (h : type.Edit v w) :
    type.Alike v w := by
  induction h with
  | undeclared h =>
    refine RecordSchema.alike_iff.mpr (.inr ⟨_, _, rfl, rfl, fun e he => ?_⟩)
    rw [h e.1 (List.mem_map_of_mem he)]
    exact optionRel_alike_refl _ _
  | @item t _ _ before after _ ih =>
    have hrefl : ∀ xs, List.Forall₂ t.Alike xs xs := fun xs =>
      List.forall₂_same.mpr fun x _ => .refl t x
    exact .inr ⟨_, _, rfl, rfl, List.rel_append (hrefl before) (.cons ih (hrefl after))⟩
  | @member s ms f v w hv _ ih =>
    refine RecordSchema.alike_iff.mpr (.inr ⟨_, _, rfl, rfl, fun e he => ?_⟩)
    rw [Members.get_insert]
    split
    · next hf =>
      rw [hf, hv]
      exact .some (ih e.2 (hf ▸ he))
    · exact optionRel_alike_refl _ _

theorem FieldType.Alike.of_edits {type : FieldType} {v w : Value}
    (h : Relation.ReflTransGen type.Edit v w) : type.Alike v w := by
  induction h with
  | refl => exact .refl type v
  | tail _ hlast ih => exact FieldType.Alike.trans type _ _ _ ih hlast.alike

namespace Validation

theorem eachItem_congr {check : Nat → Value → Except Problem Datum} {xs ys : List Value}
    (h : List.Forall₂ (fun x y => ∀ i, check i x = check i y) xs ys) (i : Nat) :
    eachItem check i xs = eachItem check i ys := by
  induction h generalizing i with
  | nil => rfl
  | cons hx _ ih => rw [eachItem, eachItem, hx i, ih (i + 1)]

mutual

theorem validateAt_congr :
    ∀ (type : FieldType) (v w : Value), type.Alike v w →
      ∀ path, validateAt path type v = validateAt path type w
  | .integer, v, w, h, path => by rw [show v = w from h]
  | .text, v, w, h, path => by rw [show v = w from h]
  | .list item, v, w, h, path => by
    rcases h with rfl | ⟨xs, ys, rfl, rfl, hitems⟩
    · rfl
    · rw [validateAt, validateAt]
      have heach : List.Forall₂ (fun x y => ∀ i, validateAt (itemPath path i) item x =
          validateAt (itemPath path i) item y) xs ys :=
        hitems.imp fun x y hxy i => validateAt_congr item x y hxy (itemPath path i)
      rw [eachItem_congr heach]
  | .record s, v, w, h, path => by
    rw [validateAt, validateAt, validateRecordAt_congr s v w h path]

theorem validateRecordAt_congr :
    ∀ (s : RecordSchema) (v w : Value), s.Alike v w →
      ∀ path, validateRecordAt path s v = validateRecordAt path s w
  | ⟨_, _, fields⟩, v, w, h, path => by
    rcases h with rfl | ⟨ms, ns, rfl, rfl, hfields⟩
    · rfl
    · rw [validateRecordAt, validateRecordAt]
      rw [validateFieldsAt_congr fields ms ns hfields path]

theorem validateFieldsAt_congr :
    ∀ (fields : List (String × FieldType)) (ms ns : Members),
      AlikeFields fields (Members.get? ms) (Members.get? ns) →
      ∀ path, validateFieldsAt path fields ms = validateFieldsAt path fields ns
  | [], _, _, _, _ => rfl
  | (f, t) :: rest, ms, ns, ⟨hf, hrest⟩, path => by
    rw [validateFieldsAt, validateFieldsAt, validateFieldsAt_congr rest ms ns hrest path]
    generalize Members.get? ms f = a at hf ⊢
    generalize Members.get? ns f = b at hf ⊢
    cases hf with
    | none => rfl
    | some h =>
      dsimp only
      rw [validateAt_congr t _ _ h]

end

end Validation

namespace Extraction

theorem fields_congr {source other : String → Option Value} {fs : List (String × FieldType)}
    (h : AlikeFields fs source other) (reject : Bool) (absence : String) :
    fields source reject absence fs = fields other reject absence fs := by
  induction fs with
  | nil => rfl
  | cons e rest ih =>
    obtain ⟨f, t⟩ := e
    obtain ⟨hf, hrest⟩ := h
    rw [fields, fields, ih hrest]
    generalize source f = a at hf ⊢
    generalize other f = b at hf ⊢
    cases hf with
    | none => rfl
    | some h =>
      dsimp only
      rw [validateAt_congr t _ _ h]

theorem body_congr {s : RecordSchema} {v w : Value} (h : s.Alike v w) (reject : Bool) :
    body v reject s = body w reject s := by
  obtain ⟨name, description, fs⟩ := s
  rcases h with rfl | ⟨ms, ns, rfl, rfl, hfields⟩
  · rfl
  · rw [body, body, record, record]
    exact congrArg (Except.map _) (fields_congr hfields reject missingMessage)

end Extraction

theorem Recorded.bind_congr {α β : Type} (x : Recorded α) {f g : α → Recorded β}
    (h : f x.value = g x.value) : x >>= f = x >>= g := by
  change Recorded.mk _ _ _ = Recorded.mk _ _ _
  rw [h]

namespace Pipeline

theorem readPart_congr (p : Pipeline) {schema : Option RecordSchema}
    {extract other : RecordSchema → Except ContractError Instance}
    (h : ∀ s, schema = some s → extract s = other s) (target : Stage) :
    p.readPart schema extract target = p.readPart schema other target := by
  cases schema with
  | none => rfl
  | some s => rw [readPart, readPart, h s rfl]

theorem run_congr (p : Pipeline) (captures : Captures) {v w : Value}
    (h : ∀ s, p.contract.body = some s → s.Alike v w) : p.run captures v = p.run captures w := by
  unfold run
  by_cases hs : p.stage = .unvalidated
  · rw [if_neg (not_not.mpr hs), if_neg (not_not.mpr hs)]
    apply Recorded.bind_congr
    rw [readPart_value]
    cases RequestContract.partOf p.contract.path
        (Extraction.path captures p.rejectMissingFields) with
    | error e => rfl
    | ok first =>
      dsimp only
      rw [readPart_congr _ fun s hs => Extraction.body_congr (h s hs) p.rejectMissingFields]
  · rw [if_pos hs, if_pos hs]

end Pipeline

namespace Exchange

variable (registry : Registry) (policy : Policy) (context : Context)

theorem validateRequest_congr (captures : Captures) {v w : Value}
    (h : ∀ id contract, context.operation = some id → registry.contractOf id = .ok contract →
      ∀ s, contract.request.body = some s → s.Alike v w) :
    validateRequest registry policy context captures v =
      validateRequest registry policy context captures w := by
  unfold validateRequest
  split
  · rfl
  · cases hid : context.operationOrError with
    | error e => rfl
    | ok id =>
      dsimp only
      cases hc : registry.contractOf id with
      | error e => rfl
      | ok contract =>
        dsimp only
        rw [Pipeline.run_congr _ captures fun s hs =>
          h id contract (operationOrError_eq_ok.mp hid) hc s hs]

theorem validateResponse_congr (status : Status) {v w : Value}
    (h : ∀ id response, context.operation = some id →
      responseContract registry id status = .ok response → response.schema.Alike v w) :
    validateResponse registry policy context status v =
      validateResponse registry policy context status w := by
  unfold validateResponse
  split
  · rfl
  · cases hid : context.operationOrError with
    | error e => rfl
    | ok id =>
      dsimp only
      cases hr : responseContract registry id status with
      | error e => cases e <;> rfl
      | ok response =>
        dsimp only
        rw [validateRecord, validateRecord,
          validateRecordAt_congr _ v w (h id response (operationOrError_eq_ok.mp hid) hr)]

theorem renderResponse_congr (status : Status) {content other : Instance}
    (h : ∀ id response, context.operation = some id →
      responseContract registry id status = .ok response →
      response.schema.Alike content.toJson other.toJson) :
    renderResponse registry context status content =
      renderResponse registry context status other := by
  unfold renderResponse
  cases hid : context.operationOrError with
  | error e => rfl
  | ok id =>
    rw [Outcome.ok_bind, Outcome.ok_bind]
    cases hr : responseContract registry id status with
    | error e => rfl
    | ok response =>
      rw [Outcome.ok_bind, Outcome.ok_bind, validateRecord, validateRecord,
        validateRecordAt_congr _ _ _ (h id response (operationOrError_eq_ok.mp hid) hr)]

/-- Values that are alike at a type, as they are after any changes of undeclared members at any
depth, are not told apart: validation gives the same datum or the same problem, and so does reading
a body; the stages of a request, its check and that of a response come to the same with the same
reports, and instances whose JSON is alike for a response are rendered as one. -/
theorem alike_not_told_apart :
    (∀ (type : FieldType) (v w : Value),
      Relation.ReflTransGen type.Edit v w → type.Alike v w) ∧
    (∀ (type : FieldType) (v w : Value), type.Alike v w →
      ∀ path, validateAt path type v = validateAt path type w) ∧
    (∀ (s : RecordSchema) (v w : Value), s.Alike v w →
      validateRecord s v = validateRecord s w ∧
      ∀ reject, Extraction.body v reject s = Extraction.body w reject s) ∧
    (∀ (p : Pipeline) (captures : Captures) (v w : Value),
      (∀ s, p.contract.body = some s → s.Alike v w) → p.run captures v = p.run captures w) ∧
    (∀ (registry : Registry) (policy : Policy) (context : Context) (captures : Captures)
      (v w : Value),
      (∀ id contract, context.operation = some id → registry.contractOf id = .ok contract →
        ∀ s, contract.request.body = some s → s.Alike v w) →
      validateRequest registry policy context captures v =
        validateRequest registry policy context captures w) ∧
    (∀ (registry : Registry) (policy : Policy) (context : Context) (status : Status) (v w : Value),
      (∀ id response, context.operation = some id →
        responseContract registry id status = .ok response → response.schema.Alike v w) →
      validateResponse registry policy context status v =
        validateResponse registry policy context status w) ∧
    (∀ (registry : Registry) (context : Context) (status : Status) (content other : Instance),
      (∀ id response, context.operation = some id →
        responseContract registry id status = .ok response →
        response.schema.Alike content.toJson other.toJson) →
      renderResponse registry context status content =
        renderResponse registry context status other) := by
  refine ⟨fun _ _ _ h => .of_edits h, validateAt_congr, ?_, ?_, ?_, ?_, ?_⟩
  · intro s v w h
    exact ⟨validateRecordAt_congr s v w h rootPath, Extraction.body_congr h⟩
  · intro p captures v w h
    exact p.run_congr captures h
  · intro registry policy context captures v w h
    exact validateRequest_congr registry policy context captures h
  · intro registry policy context status v w h
    exact validateResponse_congr registry policy context status h
  · intro registry context status content other h
    exact renderResponse_congr registry context status h

/-- A secret in the record of a user, two levels down in a page of users, is not in what is read, and
the page is checked as if it were not there. -/
theorem secret_in_page_not_seen :
    let known : Members :=
      [("email", .string "ann@example.com"), ("id", .int 5), ("name", .string "ann")]
    let page (user : Members) : Value :=
      .object [("total", .int 1), ("users", .array [.object user])]
    let told := page (known ++ [("secret", .string "x")])
    let pages : FieldType := .record Sample.userList
    let ann : Instance := ⟨Sample.user,
      [("id", .integer 5), ("name", .text "ann"), ("email", .text "ann@example.com")]⟩
    Relation.ReflTransGen pages.Edit told (page known) ∧
    validate pages told =
      .ok (.record ⟨Sample.userList, [("users", .list [.record ann]), ("total", .integer 1)]⟩) ∧
    validate pages told = validate pages (page known) := by
  intro known page told pages ann
  have hedit : pages.Edit told (page known) := by
    apply FieldType.Edit.member (f := "users") rfl
    intro t ht
    have htypes : Sample.userList.fields =
      [("users", .list (.record Sample.user)), ("total", .integer)] := rfl
    obtain rfl : t = .list (.record Sample.user) := by simpa [htypes] using ht
    apply FieldType.Edit.item [] []
    apply FieldType.Edit.undeclared
    have hnames : Sample.user.fieldNames = ["id", "name", "email"] := rfl
    rw [hnames]
    simp [known, Members.get?, Entries.lookup_cons_ite]
  have hedits := Relation.ReflTransGen.single hedit
  obtain ⟨hlike, hsame, -⟩ := alike_not_told_apart
  exact ⟨hedits, rfl, hsame pages _ _ (hlike pages _ _ hedits) rootPath⟩

end Exchange

end Covenant
