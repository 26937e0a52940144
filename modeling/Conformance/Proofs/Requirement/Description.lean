import Conformance.Proofs.Requirement.Declaration
import Conformance.Proofs.TypeExpr.RoundTrip
import Conformance.Proofs.Value.Parts

/-!
# Descriptions

A description in JSON has the texts of types at its leaves. Reading it comes to the first leaf
that is no such text, or else to a requirement which has it for its description. The other way
round, what is made of types and shapes is found again in its description, with the fields of all
shapes sorted by their names (`describe_roundTrip`).
-/

namespace Conformance

namespace Json

mutual

/-- What is no object itself, in all the objects inside, in the order of the keys. -/
def leaves : Json → List Json
  | object entries => leavesIn entries
  | j => [j]

def leavesIn : List (String × Json) → List Json
  | [] => []
  | (_, j) :: rest => j.leaves ++ leavesIn rest

end

def IsTypeText (j : Json) : Prop :=
  ∃ e : TypeExpr, IsTypeName e.baseName.toList ∧ j = .string e.text

/-- What is wrong with a leaf of a description. -/
def flaw? : Json → Option ConfigurationError
  | string text =>
    match TypeExpr.parse text with
    | .ok _ => none
    | .error e => some e
  | j => some (.unsupportedRequirement j)

theorem flaw?_eq_none_iff {j : Json} : j.flaw? = none ↔ j.IsTypeText := by
  cases j with
  | string text =>
    calc flaw? (string text) = none
        ↔ ∃ e, TypeExpr.parse text = .ok e := by
          rw [flaw?]
          cases TypeExpr.parse text <;> simp
      _ ↔ IsTypeText (string text) := by
          simp only [TypeExpr.parse_eq_ok_iff, IsTypeText, string.injEq, @eq_comm _ text]
  | _ => simp [flaw?, IsTypeText]

end Json

namespace Requirement

variable {j : Json} {q : Requirement} {e : ConfigurationError} {fields : Shape}
  {entries : List (String × Json)}

/-! ## The first error -/

theorem declareEntries_eq_error_iff {declared : Shape}
    (h : ∀ entry ∈ entries, ∀ e, ofJson entry.2 = .error e ↔
      entry.2.leaves.findSome? Json.flaw? = some e) :
    declareEntries declared entries = .error e ↔
      (Json.leavesIn entries).findSome? Json.flaw? = some e := by
  induction entries generalizing declared with
  | nil => simp [declareEntries, Json.leavesIn]
  | cons entry rest ih =>
    obtain ⟨name, j⟩ := entry
    obtain ⟨hentry, hrest⟩ := List.forall_mem_cons.1 h
    rw [declareEntries, Json.leavesIn, List.findSome?_append]
    cases hj : ofJson j with
    | ok q =>
      have hnone : j.leaves.findSome? Json.flaw? = none :=
        Option.eq_none_iff_forall_ne_some.2 fun e he => by
          rw [(hentry e).2 he] at hj
          cases hj
      rw [hnone, Option.none_or]
      exact ih hrest
    | error e' =>
      rw [(hentry e').1 hj]
      simp

theorem ofJson_eq_error_iff (j : Json) (e : ConfigurationError) :
    ofJson j = .error e ↔ j.leaves.findSome? Json.flaw? = some e := by
  induction j using Json.induction generalizing e with
  | string text =>
    have hleaves : (Json.string text).leaves = [.string text] := rfl
    rw [ofJson, parse, hleaves, List.findSome?_singleton, Json.flaw?]
    cases TypeExpr.parse text <;> simp
  | object entries ih =>
    rw [Json.leaves, ← declareEntries_eq_error_iff ih, ofJson]
    cases declareEntries [] entries <;> simp
  | _ => simp [ofJson, Json.leaves, Json.flaw?]

theorem exists_ofJson_eq_ok_iff (j : Json) :
    (∃ q, ofJson j = .ok q) ↔ ∀ leaf ∈ j.leaves, leaf.IsTypeText := by
  rw [exists_eq_ok_iff_of_findSome? (ofJson_eq_error_iff j)]
  simp only [Json.flaw?_eq_none_iff]

/-! ## What is read -/

theorem ofJson_string_eq_ok_iff {text : String} :
    ofJson (.string text) = .ok q ↔
      ∃ e : TypeExpr, IsTypeName e.baseName.toList ∧ e.text = text ∧ q = .type e := by
  calc ofJson (.string text) = .ok q
      ↔ ∃ e, TypeExpr.parse text = .ok e ∧ q = .type e := by
        rw [ofJson, parse]
        cases TypeExpr.parse text <;> simp [eq_comm]
    _ ↔ ∃ e : TypeExpr, IsTypeName e.baseName.toList ∧ e.text = text ∧ q = .type e := by
        simp only [TypeExpr.parse_eq_ok_iff, and_assoc]

def Describes (entry : String × Json) (field : String × Requirement) : Prop :=
  entry.1 = field.1 ∧ ofJson entry.2 = .ok field.2

theorem declareEntries_eq_ok_iff {declared result : Shape}
    (h : (declared.names ++ entries.map (·.1)).Nodup) :
    declareEntries declared entries = .ok result ↔
      ∃ fields, List.Forall₂ Describes entries fields ∧ result = declared ++ fields := by
  induction entries generalizing declared with
  | nil => simp [declareEntries, eq_comm]
  | cons entry rest ih =>
    obtain ⟨name, j⟩ := entry
    rw [declareEntries]
    cases hj : ofJson j with
    | error e => simp [List.forall₂_cons_left_iff, Describes, hj]
    | ok q =>
      have hnew : name ∉ declared.names := fun hmem =>
        (List.nodup_append.1 h).2.2 name hmem name List.mem_cons_self rfl
      have hnext : (Shape.names (declared ++ [(name, q)]) ++ rest.map (·.1)).Nodup := by
        simpa [Shape.names] using h
      calc declareEntries (declared.declare name q) rest = .ok result
          ↔ ∃ fields, List.Forall₂ Describes rest fields ∧
              result = declared ++ (name, q) :: fields := by
            rw [Shape.declare_of_not_mem hnew, ih hnext]
            simp only [List.append_assoc, List.singleton_append]
        _ ↔ ∃ fields, List.Forall₂ Describes ((name, j) :: rest) fields ∧
              result = declared ++ fields := by
            constructor
            · rintro ⟨fields, hfields, rfl⟩
              exact ⟨(name, q) :: fields, .cons ⟨rfl, hj⟩ hfields, rfl⟩
            · rintro ⟨_, hfields, rfl⟩
              obtain ⟨⟨name', q'⟩, fields, ⟨hname, hq⟩, hrest, rfl⟩ :=
                List.forall₂_cons_left_iff.1 hfields
              obtain rfl : name = name' := hname
              obtain rfl : q = q' := Except.ok.inj (hj.symm.trans hq)
              exact ⟨fields, hrest, rfl⟩

theorem ofJson_object_eq_ok_iff (h : (entries.map (·.1)).Nodup) :
    ofJson (.object entries) = .ok q ↔
      ∃ fields, List.Forall₂ Describes entries fields ∧ q = .shape fields := by
  have hnames : (Shape.names [] ++ entries.map (·.1)).Nodup := h
  calc ofJson (.object entries) = .ok q
      ↔ ∃ fields, declareEntries [] entries = .ok fields ∧ q = .shape fields := by
        rw [ofJson]
        cases declareEntries [] entries <;> simp [eq_comm]
    _ ↔ ∃ fields, List.Forall₂ Describes entries fields ∧ q = .shape fields := by
        simp only [declareEntries_eq_ok_iff hnames, List.nil_append, exists_eq_right']

theorem describeFields_eq_map (fields : Shape) :
    describeFields fields = fields.map fun field => (field.1, field.2.describe) := by
  induction fields with
  | nil => rfl
  | cons field rest ih => rw [describeFields, ih, List.map_cons]

theorem describe_of_ofJson (hj : j.Normal) (h : ofJson j = .ok q) : q.describe = j := by
  induction j using Json.induction generalizing q with
  | string text =>
    obtain ⟨e, -, rfl, rfl⟩ := ofJson_string_eq_ok_iff.1 h
    rfl
  | object entries ih =>
    obtain ⟨hordered, hentries⟩ := hj
    obtain ⟨fields, hfields, rfl⟩ :=
      (ofJson_object_eq_ok_iff (Entries.nodup_of_ordered hordered)).1 h
    have hsame : List.Forall₂ (fun entry field => id entry = (field.1, field.2.describe)) entries
        fields := by
      refine forall₂_imp_mem (fun entry hentry field hfield => ?_) hfields
      have hnormal := Json.normalEntries_iff.1 hentries entry hentry
      exact Prod.ext hfield.1 (ih entry hentry hnormal hfield.2).symm
    rw [describe, describeFields_eq_map, ← map_eq_map_of_forall₂ hsame, List.map_id,
      Entries.ofList_of_ordered hordered]
  | _ => cases h

/-! ## What is described -/

/-- Made of types and shapes, with names in the types that can be read, and no field declared
twice. -/
inductive Declarative : Requirement → Prop
  | type {e : TypeExpr} (named : IsTypeName e.baseName.toList) : Declarative (.type e)
  | shape {fields : Shape} (distinct : fields.names.Nodup)
    (declared : ∀ field ∈ fields, Declarative field.2) : Declarative (.shape fields)

theorem Declarative.declare (h : Declarative (.shape fields)) (hq : q.Declarative) (name : String) :
    Declarative (.shape (fields.declare name q)) := by
  cases h with
  | shape distinct declared =>
    refine .shape (Shape.nodup_names_declare distinct name q) fun field hfield => ?_
    rcases Shape.mem_declare hfield with rfl | hfield
    · exact hq
    · exact declared field hfield

theorem Declarative.normal_describe (h : q.Declarative) : q.describe.Normal := by
  induction h with
  | type => trivial
  | @shape fields distinct declared ih =>
    rw [describe, describeFields_eq_map]
    refine ⟨Entries.ordered_ofList _, Json.normalEntries_iff.2 fun entry hentry => ?_⟩
    obtain ⟨field, hfield, rfl⟩ := List.mem_map.1 (Entries.mem_of_mem_ofList hentry)
    exact ih field hfield

theorem declarative_of_declareEntries {declared result : Shape}
    (h : (shape declared).Declarative)
    (hentries : ∀ entry ∈ entries, ∀ q, ofJson entry.2 = .ok q → q.Declarative)
    (hresult : declareEntries declared entries = .ok result) : (shape result).Declarative := by
  induction entries generalizing declared with
  | nil =>
    cases hresult
    exact h
  | cons entry rest ih =>
    obtain ⟨hentry, hrest⟩ := List.forall_mem_cons.1 hentries
    rw [declareEntries] at hresult
    split at hresult
    · next q hq => exact ih (h.declare (hentry q hq) _) hrest hresult
    · cases hresult

theorem declarative_of_ofJson (h : ofJson j = .ok q) : q.Declarative := by
  induction j using Json.induction generalizing q with
  | string text =>
    obtain ⟨e, hname, -, rfl⟩ := ofJson_string_eq_ok_iff.1 h
    exact .type hname
  | object entries ih =>
    have hempty : (shape []).Declarative := .shape List.nodup_nil (List.forall_mem_nil _)
    rw [ofJson] at h
    split at h
    · next result hresult =>
      cases h
      exact declarative_of_declareEntries hempty (fun entry hentry q => ih entry hentry) hresult
    · cases h
  | _ => cases h

mutual

/-- The same with the fields of all shapes sorted by their names. -/
def sorted : Requirement → Requirement
  | shape fields => shape ((sortedIn fields).insertionSort fun x y => x.1 ≤ y.1)
  | q => q

def sortedIn : Shape → Shape
  | [] => []
  | (name, q) :: rest => (name, q.sorted) :: sortedIn rest

end

theorem sortedIn_eq_map (fields : Shape) :
    sortedIn fields = fields.map fun field => (field.1, field.2.sorted) := by
  induction fields with
  | nil => rfl
  | cons field rest ih => rw [sortedIn, ih, List.map_cons]

theorem sorted_shape (h : fields.names.Nodup) :
    (shape fields).sorted =
      shape ((Entries.ofList fields).map fun field => (field.1, field.2.sorted)) := by
  have hnames : ((fields.map fun field => (field.1, field.2.sorted)).map (·.1)).Nodup := by
    rw [List.map_map]
    exact h
  rw [sorted, sortedIn_eq_map, ← Entries.ofList_eq_insertionSort hnames, Entries.ofList_map]

theorem ofJson_describe (h : q.Declarative) : ofJson q.describe = .ok q.sorted := by
  induction h with
  | @type e named => exact ofJson_string_eq_ok_iff.2 ⟨e, named, rfl, rfl⟩
  | @shape fields distinct declared ih =>
    rw [describe, describeFields_eq_map, Entries.ofList_map, sorted_shape distinct]
    refine (ofJson_object_eq_ok_iff ?_).2 ⟨_, ?_, rfl⟩
    · rw [List.map_map]
      exact Entries.nodup_of_ordered (Entries.ordered_ofList fields)
    · rw [List.forall₂_map_left_iff, List.forall₂_map_right_iff]
      exact List.forall₂_same.2 fun field hfield =>
        ⟨rfl, ih field (Entries.mem_of_mem_ofList hfield)⟩

/-- Reading a description fails at the first leaf, in the order of the keys, that is no text of a
type, and says what is wrong with that leaf. Without such a leaf it yields a requirement made of
types and shapes that has the JSON for its description. Each requirement of that sort is read off
its own description, but for the order of the fields in its shapes, which are sorted by their
names. -/
theorem describe_roundTrip :
    (∀ j : Json, ((∃ q, ofJson j = .ok q) ↔ ∀ leaf ∈ j.leaves, leaf.IsTypeText) ∧
      (∀ e, ofJson j = .error e ↔ ∃ before leaf after, j.leaves = before ++ leaf :: after ∧
        leaf.flaw? = some e ∧ ∀ other ∈ before, other.IsTypeText) ∧
      ∀ q, ofJson j = .ok q → q.Declarative ∧ (j.Normal → q.describe = j)) ∧
    ∀ q : Requirement, q.Declarative → ofJson q.describe = .ok q.sorted := by
  refine ⟨fun j => ⟨exists_ofJson_eq_ok_iff j, fun e => ?_, fun q hq => ?_⟩,
    fun _ => ofJson_describe⟩
  · simp only [ofJson_eq_error_iff, List.findSome?_eq_some_iff, Json.flaw?_eq_none_iff]
  · exact ⟨declarative_of_ofJson hq, fun hj => describe_of_ofJson hj hq⟩

/-- A shape in a shape, both with their fields out of order. Of the two leaves that are wrong in the
last description the one under the lesser key is reported, although it lies deeper. -/
theorem describe_roundTrip_nested :
    let q : Requirement := .shape [("tags", .type (.array (.named "string" false) false)),
      ("at", .shape [("y", .type (.named "int" true)), ("x", .type (.named "int" false))])]
    let sorted : Requirement := .shape
      [("at", .shape [("x", .type (.named "int" false)), ("y", .type (.named "int" true))]),
        ("tags", .type (.array (.named "string" false) false))]
    let j : Json := .object [("at", .object [("x", .string "int"), ("y", .string "int?")]),
      ("tags", .string "[string]")]
    let bad : Json := .object [("at", .object [("x", .string "int"), ("y", .string "[int")]),
      ("tags", .int 3)]
    q.describe = j ∧ ofJson j = .ok sorted ∧ sorted.describe = j ∧
      ofJson bad = .error (.malformedTypeName "[int" .unclosed) := by
  intro q sorted j bad
  obtain ⟨hread, hdescribed⟩ := describe_roundTrip
  have hint : IsTypeName "int".toList := NameFlaw.ofName?_eq_none_iff.1 rfl
  have hstring : IsTypeName "string".toList := NameFlaw.ofName?_eq_none_iff.1 rfl
  have hat : Declarative
      (.shape [("y", .type (.named "int" true)), ("x", .type (.named "int" false))]) := by
    refine .shape (by decide) (List.forall_mem_cons.2 ⟨.type hint, ?_⟩)
    exact List.forall_mem_singleton.2 (.type hint)
  have hq : q.Declarative :=
    .shape (by decide) (List.forall_mem_cons.2 ⟨.type hstring, List.forall_mem_singleton.2 hat⟩)
  have hdescribe : q.describe = j := rfl
  have hok : ofJson j = .ok sorted := hdescribed q hq
  have hflaw : Json.flaw? (.string "[int") = some (.malformedTypeName "[int" .unclosed) := by
    have hchars : TypeExpr.ofChars "[int".toList = .error (.malformed .unclosed) := by
      rw [TypeExpr.ofChars]
      rfl
    rw [Json.flaw?, TypeExpr.parse, hchars]
  refine ⟨hdescribe, hok, ((hread j).2.2 sorted hok).2 hq.normal_describe, ?_⟩
  exact ((hread bad).2.1 _).2 ⟨[.string "int"], .string "[int", [.int 3], rfl, hflaw,
    List.forall_mem_singleton.2 ⟨.named "int" false, hint, rfl⟩⟩

end Requirement

end Conformance
