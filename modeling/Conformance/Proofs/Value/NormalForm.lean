import Conformance.Proofs.Double.Integers
import Conformance.Proofs.Value.Equality

/-!
# The JSON form as a normal form

Rendering a value settles how its numbers are written and drops or replaces what JSON has no form
for. What it leaves is canonical, and canonical JSON is rendered as itself once it has been read
(`toJson_normalForm`). Where nothing had to be dropped or replaced, reading gives the value back.
-/

namespace Conformance

/-- As it is rendered: integers are told apart by their doubles, and other numbers are finite
doubles that are no such integers. -/
inductive Json.Canonical : Json → Prop
  | null : Canonical .null
  | bool (b : Bool) : Canonical (.bool b)
  | int {n : Int} (h : n.natAbs ≤ maxSafeInteger) : Canonical (.int n)
  | double {x : Double} (h : x.toJson = .double x) : Canonical (.double x)
  | string (s : String) : Canonical (.string s)
  | array {items : List Json} (h : ∀ j ∈ items, Canonical j) : Canonical (.array items)
  | object {entries : List (String × Json)} (h : ∀ entry ∈ entries, Canonical entry.2) :
    Canonical (.object entries)

theorem Double.canonical_toJson (x : Double) : x.toJson.Canonical := by
  rcases x.toJson_cases with ⟨-, h⟩ | ⟨n, h, hn, -⟩ | ⟨-, h⟩
  · rw [h]
    exact .null
  · rw [h]
    exact .int hn
  · rw [h]
    exact .double h

namespace Value

variable {v : Value} {j : Json}

/-! ## Rendered once -/

theorem canonical_bufferJson (bytes : List UInt8) : (bufferJson bytes).Canonical := by
  have hbytes : (bytesJson bytes).Canonical := by
    refine .array fun j hj => ?_
    obtain ⟨b, -, rfl⟩ := List.mem_map.1 hj
    have hb := b.toNat_lt
    exact .int (by rw [Int.natAbs_natCast, maxSafeInteger]; omega)
  exact .object (List.forall_mem_cons.2 ⟨hbytes, List.forall_mem_singleton.2 (.string _)⟩)

theorem canonical_of_toJson (h : v.toJson = some j) : j.Canonical := by
  rw [toJson] at h
  induction v using Value.induction generalizing j with
  | undefined => cases h
  | null => cases h; exact .null
  | bool b => cases h; exact .bool b
  | number x => cases h; exact x.canonical_toJson
  | string s => cases h; exact .string s
  | array items ih =>
    cases h
    rw [itemsWith_eq_map]
    refine .array fun j hj => ?_
    obtain ⟨v, hv, rfl⟩ := List.mem_map.1 hj
    cases hv' : v.jsonWith bufferJson with
    | none => exact .null
    | some j => exact ih v hv hv'
  | object maker fields ih =>
    cases h
    rw [fieldsWith_eq_filterMap]
    refine .object fun entry hentry => ?_
    obtain ⟨field, hfield, hsome⟩ := List.mem_filterMap.1 hentry
    obtain ⟨j, hj, rfl⟩ := Option.map_eq_some_iff.1 hsome
    exact ih field hfield hj
  | date t => cases h; exact .string _
  | buffer bytes => cases h; exact canonical_bufferJson bytes
  | function f => cases h

/-! ## Read and rendered again -/

theorem toJson_ofJson (h : j.Canonical) : (ofJson j).toJson = some j := by
  rw [toJson]
  induction h with
  | null => rfl
  | bool b => rfl
  | int h => rw [ofJson, jsonWith, Double.toJson_ofInt h]
  | double h => rw [ofJson, jsonWith, h]
  | string s => rfl
  | @array items h ih =>
    have hitems : itemsWith bufferJson (ofJsonItems items) = items := by
      rw [itemsWith_eq_map, ofJsonItems_eq_map, List.map_map]
      refine (List.map_congr_left fun j hj => ?_).trans (List.map_id items)
      rw [Function.comp_apply, ih j hj, Option.getD_some, id]
    rw [ofJson, jsonWith, hitems]
  | @object entries h ih =>
    have hentries : fieldsWith bufferJson (ofJsonEntries entries) = entries := by
      rw [fieldsWith_eq_filterMap, ofJsonEntries_eq_map, List.filterMap_map]
      refine (List.filterMap_congr fun entry hentry => ?_).trans List.filterMap_some
      rw [Function.comp_apply, ih entry hentry, Option.map_some]
    rw [ofJson, jsonWith, hentries]

/-! ## Read back -/

/-- A value that JSON can express: it is made of `null`, truth values, finite numbers, strings,
arrays and plain objects. -/
inductive Plain : Value → Prop
  | null : Plain .null
  | bool (b : Bool) : Plain (.bool b)
  | number {x : Double} (h : x.isFinite) : Plain (.number x)
  | string (s : String) : Plain (.string s)
  | array {items : List Value} (h : ∀ v ∈ items, Plain v) : Plain (.array items)
  | object {fields : List (String × Value)} (h : ∀ field ∈ fields, Plain field.2) :
    Plain (.object none fields)

theorem Plain.number_eq {x : Double} (h : x.isFinite) : (ofJson x.toJson).eq (.number x) := by
  rcases x.toJson_cases with ⟨hinf, -⟩ | ⟨n, hn, -, heq⟩ | ⟨-, hx⟩
  · rw [h] at hinf
    cases hinf
  · rw [hn, ofJson, Value.eq]
    exact heq
  · rw [hx, ofJson, Value.eq]
    refine Double.eq_self_iff.2 ?_
    rintro rfl
    cases h

theorem Plain.ofJson_eq (h : v.Plain) : ∃ j, v.toJson = some j ∧ (ofJson j).eq v := by
  rw [toJson]
  induction h with
  | null => exact ⟨.null, rfl, rfl⟩
  | bool b => exact ⟨.bool b, rfl, eq_iff.2 (.bool b)⟩
  | @number x h => exact ⟨x.toJson, rfl, number_eq h⟩
  | string s => exact ⟨.string s, rfl, eq_iff.2 (.string s)⟩
  | @array items h ih =>
    refine ⟨_, rfl, eq_iff.2 ?_⟩
    rw [itemsWith_eq_map, ofJson, ofJsonItems_eq_map]
    refine .array ?_
    rw [List.forall₂_map_left_iff, List.forall₂_map_left_iff]
    refine List.forall₂_same.2 fun v hv => ?_
    obtain ⟨j, hj, heq⟩ := ih v hv
    rw [hj]
    exact heq
  | @object fields h ih =>
    -- Each field is rendered, so none is dropped.
    have hfields : fieldsWith bufferJson fields =
        fields.map fun field => (field.1, (field.2.jsonWith bufferJson).getD .null) := by
      rw [fieldsWith_eq_filterMap, ← List.filterMap_eq_map]
      refine List.filterMap_congr fun field hfield => ?_
      obtain ⟨j, hj, -⟩ := ih field hfield
      rw [Function.comp_apply, hj, Option.map_some, Option.getD_some]
    refine ⟨_, rfl, eq_iff.2 ?_⟩
    rw [hfields, ofJson, ofJsonEntries_eq_map]
    refine .object none ?_
    rw [List.forall₂_map_left_iff, List.forall₂_map_left_iff]
    refine List.forall₂_same.2 fun field hfield => ⟨rfl, ?_⟩
    obtain ⟨j, hj, heq⟩ := ih field hfield
    rw [hj]
    exact heq

/-- The JSON form of a value is rendered as itself once it has been read, whatever the value holds.
A value that JSON can express has such a form, and reading it gives an equal value. -/
theorem toJson_normalForm :
    (∀ (v : Value) (j : Json), v.toJson = some j → (ofJson j).toJson = some j) ∧
      ∀ v : Value, v.Plain → ∃ j, v.toJson = some j ∧ (ofJson j).eq v :=
  ⟨fun _ _ h => toJson_ofJson (canonical_of_toJson h), fun _ h => h.ofJson_eq⟩

/-- What has no JSON form of its own is dropped or replaced in the first value, and nothing is in the
second, which has a zero with a sign and the last whole number that is told apart. -/
theorem toJson_normalForm_mixed :
    let v : Value := .array [.undefined, .function ⟨0, none⟩, .number .nan,
      .number (.finite true .zero), .buffer [0, 255],
      .object (some (.root 0 "Point")) [("x", .undefined), ("y", .number (.infinite true))]]
    let j : Json := .array [.null, .null, .null, .int 0,
      .object [("data", .array [.int 0, .int 255]), ("type", .string "Buffer")],
      .object [("y", .null)]]
    let w : Value := .object none
      [("items", .array [.null, .number (.finite true .zero)]),
        ("last", .number (.ofInt 9007199254740991))]
    let k : Json := .object [("items", .array [.null, .int 0]), ("last", .int 9007199254740991)]
    v.toJson = some j ∧ (ofJson j).toJson = some j ∧ w.toJson = some k ∧ (ofJson k).eq w := by
  intro v j w k
  obtain ⟨hnormal, hread⟩ := toJson_normalForm
  have hlast : (9007199254740991 : Int).natAbs ≤ maxSafeInteger := by decide
  have hnan : Double.nan.toJson = .null := rfl
  have hinfinite : (Double.infinite true).toJson = .null := rfl
  have hv : v.toJson = some j := by
    simp [v, j, toJson, jsonWith, itemsWith, fieldsWith, Double.toJson_zero, bufferJson, bytesJson,
      hnan, hinfinite]
  have hw : w.toJson = some k := by
    simp [w, k, toJson, jsonWith, itemsWith, fieldsWith, Double.toJson_zero,
      Double.toJson_ofInt hlast]
  have hfinite : (Double.ofInt 9007199254740991).isFinite := by
    obtain ⟨x, hx, -⟩ := Double.exists_ofInt_eq hlast
    rw [hx]
    rfl
  have hitems : Plain (.array [.null, .number (.finite true .zero)]) :=
    .array (List.forall_mem_cons.2 ⟨.null, List.forall_mem_singleton.2 (.number rfl)⟩)
  have hplain : w.Plain :=
    .object (List.forall_mem_cons.2 ⟨hitems, List.forall_mem_singleton.2 (.number hfinite)⟩)
  obtain ⟨k', hk', heq⟩ := hread w hplain
  obtain rfl : k = k' := Option.some.inj (hw.symm.trans hk')
  exact ⟨hv, hnormal v j hv, hw, heq⟩

end Value

end Conformance
