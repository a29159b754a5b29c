import Covenant.Exchange
import Covenant.Proofs.IntegerLiterals
import Covenant.Proofs.JsonText
import Covenant.Proofs.Overlay

namespace Covenant

open Json Source

namespace Json

theorem ofLiteral_toDigits {n : ℕ} (h : (n : ℤ) ≤ Number.greatestWhole) :
    Number.ofLiteral? (Nat.toDigits 10 n) = some (.whole n) := by
  have hvalue : Number.natOfDigits (Nat.toDigits 10 n) = n := Nat.ofDigitChars_ten_toDigits
  have hn : Number.intOfDigits (Number.integerLiteral false (Nat.toDigits 10 n)) = n := by
    rw [Number.intOfDigits_literal (isDigit_toDigits n), hvalue]
    rfl
  have hlow : Number.leastWhole ≤ n := le_trans (by decide) (Int.natCast_nonneg n)
  have hread := Number.ofLiteral_digits (isDigit_toDigits n) hn
  rwa [if_pos ⟨hlow, h, by simp⟩] at hread

theorem value_natural {n : ℕ} (h : (n : ℤ) ≤ Number.greatestWhole) :
    value? (Value.int n).source = some (.int n) :=
  congrArg (Option.map Value.number) (ofLiteral_toDigits h)

@[simp] theorem value_string (s : String) : value? (Value.string s).source = some (.string s) :=
  congrArg (Option.map Value.string) (textOf_escape s)

theorem value_object {members : Members} (h : ∀ e ∈ members, value? e.2.source = some e.2) :
    value? (Value.object members).source = some (.object members) := by
  have hmembers : members? (memberSources members) = some members := by
    induction members with
    | nil => rfl
    | cons e rest ih =>
      obtain ⟨he, hrest⟩ := List.forall_mem_cons.mp h
      simp [memberSources, members?, textOf_escape, he, ih hrest]
  exact congrArg (Option.map Value.object) hmembers

end Json

theorem Category.ofName?_name (c : Category) : ofName? c.name = some c := by
  cases c <;> rfl

namespace Envelope

/-- Details that are read as they are written; a null would be taken for left out. -/
structure Faithful (d : Value) : Prop where
  whole : d.Whole
  read : value? d.source = some d
  sorted : d.sorted = d
  given : d ≠ .null

theorem Faithful.object {members : Members} (hwhole : WholeMembers members)
    (hread : ∀ e ∈ members, value? e.2.source = some e.2)
    (hsorted : (Value.object members).sorted = .object members) : Faithful (.object members) :=
  ⟨hwhole, value_object hread, hsorted, nofun⟩

def errorMembers (e : Envelope) : Members :=
  [("code", .string e.code), ("message", .string e.message),
    ("category", .string e.category.name)] ++ optionalMember "details" e.details

def sortedErrorMembers (e : Envelope) : Members :=
  [("category", .string e.category.name), ("code", .string e.code)] ++
    optionalMember "details" e.details ++ [("message", .string e.message)]

def written (e : Envelope) (error : Members) : Value :=
  .object (("error", .object error) :: optionalMember "request_id" (e.requestId.map .string))

theorem sorted_toJson (e : Envelope) :
    let sorted := { e with details := e.details.map Value.sorted }
    e.toJson.sorted = sorted.written sorted.sortedErrorMembers := by
  obtain ⟨code, message, category, details, requestId⟩ := e
  cases details <;> cases requestId <;> rfl

theorem sorted_toJson_of_faithful {e : Envelope} (h : ∀ d ∈ e.details, Faithful d) :
    e.toJson.sorted = e.written e.sortedErrorMembers := by
  have hdetails : e.details.map Value.sorted = e.details := by
    cases hd : e.details with
    | none => rfl
    | some d => exact congrArg some (h d hd).sorted
  have hsorted := e.sorted_toJson
  rwa [hdetails] at hsorted

def partOf (v : Option Value) : Part := v.elim .lacking fun v => .given v.source

theorem parts_object {members : Members} (h : (members.map (·.1)).Nodup) (names : List String) :
    parts? names (Value.object members).source =
      some (names.map fun n => partOf (members.lookup n)) := by
  have hkeys : ((members.map fun e => (e.1, e.2.source)).map (·.1)).Nodup := by rwa [List.map_map]
  have hparts := parts_written hkeys names
  rw [List.map_map] at hparts
  rw [Value.source, memberSources_eq_map]
  refine hparts.trans (congrArg some (List.map_congr_left fun n _ => ?_))
  rw [Entries.lookup_map, partOf]
  cases members.lookup n <;> rfl

theorem read_string (s : String) :
    (partOf (some (.string s))).required? string? = some s := textOf_escape s

theorem read_choice (s : String) :
    (partOf (some (.string s))).required? choice? = some s := textOf_escape s

theorem read_requestId (id : Option String) :
    (partOf (id.map .string)).optionalMember? string? = some id := by
  cases id with
  | none => rfl
  | some id => exact congrArg (Option.map some) (textOf_escape id)

theorem read_details {details : Option Value} (h : ∀ d ∈ details, Faithful d) :
    (partOf details).optionalMember? (fun d => (value? d).map Value.sorted) = some details := by
  cases details with
  | none => rfl
  | some d =>
    obtain ⟨-, hread, hsorted, hgiven⟩ := h d rfl
    change Part.optionalMember? _ (.given d.source) = _
    rw [Part.optionalMember?, Part.optional?, hread, Option.map_some, Option.map_some, hsorted]
    · -- only a null is written as one
      intro hnull
      cases d <;> first | exact hgiven rfl | cases hnull
    · nofun

/-- The members of an object are those of the error in an envelope, in some order. -/
structure Holds (e : Envelope) (error : Members) : Prop where
  once : (error.map (·.1)).Nodup
  code : error.lookup "code" = some (.string e.code)
  message : error.lookup "message" = some (.string e.message)
  category : error.lookup "category" = some (.string e.category.name)
  details : error.lookup "details" = e.details
  whole : WholeMembers error

theorem ofSource_written {e : Envelope} (he : ∀ d ∈ e.details, Faithful d) {error : Members}
    (h : e.Holds error) : ofSource? (e.written error).source = some e := by
  have houter : parts? ["error", "request_id"] (e.written error).source =
      some [partOf (some (.object error)), partOf (e.requestId.map .string)] := by
    rw [written, parts_object]
    · cases e.requestId <;> rfl
    · cases e.requestId <;> simp [optionalMember]
  have hinner : parts? ["code", "message", "category", "details"] (Value.object error).source =
      some [partOf (some (.string e.code)), partOf (some (.string e.message)),
        partOf (some (.string e.category.name)), partOf e.details] := by
    rw [parts_object h.once]
    simp [h.code, h.message, h.category, h.details]
  have herror : (partOf (some (.object error))).required? some =
      some (Value.object error).source := rfl
  rw [ofSource?, houter]
  simp [herror, hinner, read_string, read_choice, Category.ofName?_name, read_requestId,
    read_details he]

theorem ofText_written {e : Envelope} (he : ∀ d ∈ e.details, Faithful d) {error : Members}
    (h : e.Holds error) : ofText? (e.written error).compact = some e := by
  have hid : WholeMembers (optionalMember "request_id" (e.requestId.map .string)) := by
    cases e.requestId <;> simp [optionalMember, WholeMembers, Value.Whole]
  have hwhole : (e.written error).Whole := ⟨h.whole, hid⟩
  rw [ofText?, ofText_compact hwhole, Option.bind_some, ofSource_written he h]

theorem holds_errorMembers {e : Envelope} (he : ∀ d ∈ e.details, Faithful d) :
    e.Holds e.errorMembers := by
  obtain ⟨code, message, category, details, requestId⟩ := e
  cases details with
  | none => exact ⟨by simp [errorMembers, optionalMember], rfl, rfl, rfl, rfl, by trivial⟩
  | some d =>
    exact ⟨by simp [errorMembers, optionalMember], rfl, rfl, rfl, rfl,
      trivial, trivial, trivial, (he d rfl).whole, trivial⟩

theorem holds_sortedErrorMembers {e : Envelope} (he : ∀ d ∈ e.details, Faithful d) :
    e.Holds e.sortedErrorMembers := by
  obtain ⟨code, message, category, details, requestId⟩ := e
  cases details with
  | none =>
    exact ⟨by simp [sortedErrorMembers, optionalMember], rfl, rfl, rfl, rfl,
      trivial, trivial, trivial, trivial⟩
  | some d =>
    exact ⟨by simp [sortedErrorMembers, optionalMember], rfl, rfl, rfl, rfl,
      trivial, trivial, (he d rfl).whole, trivial, trivial⟩

theorem ofText_text {e : Envelope} (he : ∀ d ∈ e.details, Faithful d) :
    ofText? e.text = some e :=
  ofText_written he (holds_errorMembers he)

theorem ofText_sorted {e : Envelope} (he : ∀ d ∈ e.details, Faithful d) :
    ofText? e.toJson.sorted.compact = some e := by
  rw [sorted_toJson_of_faithful he]
  exact ofText_written he (holds_sortedErrorMembers he)

end Envelope

namespace ContractError

theorem details_faithful (e : ContractError) : ∀ d ∈ e.details, Envelope.Faithful d := by
  -- the members of the details, by their names in order
  have htexts : ∀ (first second : String) (s t : String),
      (Value.object [(first, .string s), (second, .string t)]).sorted =
        .object [(first, .string s), (second, .string t)] →
      Envelope.Faithful (.object [(first, .string s), (second, .string t)]) :=
    fun _ _ _ _ h => .object ⟨trivial, trivial, trivial⟩ (by simp) h
  intro d hd
  cases e with
  | definition message => cases hd
  | request p | response p =>
    cases hd
    exact htexts "message" "path" p.message p.path rfl
  | missingField schema field =>
    cases hd
    exact htexts "field" "schema" field schema rfl
  | unmappedOperation id =>
    cases hd
    have hmembers : ∀ e ∈ [("operation_id", Value.string id)], value? e.2.source = some e.2 := by
      simp
    exact .object ⟨trivial, trivial⟩ hmembers rfl
  | undeclaredStatus id status =>
    cases hd
    have hgreatest : Number.greatestWhole = 18446744073709551615 := rfl
    have hstatus := value_natural (n := status.toNat) (by have := status.toNat_lt; omega)
    have hmembers : ∀ e ∈ [("operation_id", Value.string id), ("status", .int status.toNat)],
        value? e.2.source = some e.2 := by simp [hstatus]
    exact .object ⟨trivial, trivial, trivial⟩ hmembers rfl

def textOf? (name : String) : Value → Option String
  | .object members =>
    match Members.get? members name with
    | some (.string s) => some s
    | _ => none
  | _ => none

def statusOf? (name : String) : Value → Option UInt16
  | .object members =>
    match Members.get? members name with
    | some (.number (.whole n)) => some (.ofNat n.toNat)
    | _ => none
  | _ => none

def problemOf? (details : Value) : Option Problem := do
  return ⟨← textOf? "path" details, ← textOf? "message" details⟩

/-- The error of which an envelope tells. Only a definition error has to be taken from the message,
behind its fixed beginning. -/
def recover? (code message : String) (details : Option Value) : Option ContractError :=
  match code, details with
  | "VALIDATION_ERROR", some d => (problemOf? d).map .request
  | "RESPONSE_VALIDATION_ERROR", some d => (problemOf? d).map .response
  | "MISSING_FIELD", some d => do return .missingField (← textOf? "schema" d) (← textOf? "field" d)
  | "DEFINITION_ERROR", none =>
    some (.definition (.ofList (message.toList.drop "definition error: ".length)))
  | "UNMAPPED_OPERATION", some d => (textOf? "operation_id" d).map .unmappedOperation
  | "UNDECLARED_STATUS", some d => do
    return .undeclaredStatus (← textOf? "operation_id" d) (← statusOf? "status" d)
  | _, _ => none

theorem recover_envelope (e : ContractError) : recover? e.code e.text e.details = some e := by
  cases e with
  | definition message =>
    have htext : (ContractError.definition message).text.toList =
        "definition error: ".toList ++ message.toList := String.toList_append
    have hdrop : ("definition error: ".toList ++ message.toList).drop "definition error: ".length =
        message.toList := List.drop_left' rfl
    rw [code, details, recover?, htext, hdrop, String.ofList_toList]
  | undeclaredStatus id status =>
    have hstatus : UInt16.ofNat status.toNat = status := UInt16.ofNat_toNat
    exact congrArg (fun s => some (ContractError.undeclaredStatus id s)) hstatus
  | _ => rfl

theorem envelope_injective {e e' : ContractError} {id id' : Option String}
    (h : e.envelope id = e'.envelope id') : e = e' ∧ id = id' := by
  refine ⟨?_, congrArg Envelope.requestId h⟩
  have hcode : e.code = e'.code := congrArg Envelope.code h
  have htext : e.text = e'.text := congrArg Envelope.message h
  have hdetails : e.details = e'.details := congrArg Envelope.details h
  rw [← Option.some_inj, ← recover_envelope e, ← recover_envelope e', hcode, htext, hdetails]

/-- The envelope of an error, with or without the id of the request, is read from its text as it was,
and so written again as the same text; its code, message and details give the error; and different
errors or different ids never have the same envelope, be it as text or as JSON in either order. -/
theorem envelope_tells_error (e e' : ContractError) (id id' : Option String) :
    Envelope.ofText? (e.envelope id).text = some (e.envelope id) ∧
    (Envelope.ofText? (e.envelope id).text).map Envelope.text = some (e.envelope id).text ∧
    Envelope.ofText? (e.envelope id).toJson.sorted.compact = some (e.envelope id) ∧
    recover? e.code e.text e.details = some e ∧
    ((e.envelope id).text = (e'.envelope id').text ↔ e = e' ∧ id = id') ∧
    ((e.envelope id).toJson = (e'.envelope id').toJson ↔ e = e' ∧ id = id') ∧
    ((e.envelope id).toJson.sorted = (e'.envelope id').toJson.sorted ↔ e = e' ∧ id = id') := by
  have hread : ∀ (e : ContractError) id, Envelope.ofText? (e.envelope id).text =
      some (e.envelope id) := fun e _ => Envelope.ofText_text (details_faithful e)
  have hsorted : ∀ (e : ContractError) id, Envelope.ofText? (e.envelope id).toJson.sorted.compact =
      some (e.envelope id) := fun e _ => Envelope.ofText_sorted (details_faithful e)
  have hsame : e = e' ∧ id = id' → e.envelope id = e'.envelope id' := by
    rintro ⟨rfl, rfl⟩
    rfl
  have htext : (e.envelope id).text = (e'.envelope id').text → e = e' ∧ id = id' := by
    intro h
    refine envelope_injective (Option.some.inj ?_)
    rw [← hread e id, h, hread]
  refine ⟨hread e id, congrArg (Option.map Envelope.text) (hread e id), hsorted e id,
    recover_envelope e, ⟨htext, fun h => congrArg _ (hsame h)⟩, ⟨?_, fun h => congrArg _ (hsame h)⟩,
    ⟨?_, fun h => congrArg (fun v => v.toJson.sorted) (hsame h)⟩⟩
  · intro h
    exact htext (congrArg Value.compact h)
  · intro h
    refine envelope_injective (Option.some.inj ?_)
    rw [← hsorted e id, h, hsorted]

end ContractError

end Covenant
