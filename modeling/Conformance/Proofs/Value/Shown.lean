import Conformance.Proofs.Json.RoundTrip
import Conformance.Proofs.Matching.Pruning
import Mathlib.Data.Nat.PSub

/-!
# What a message shows of a value

The text of a value tells how it came about: it is the placeholder just when the value is nested
too deep, `undefined` just when the value has no JSON form, and in any other case JSON that is read
as the JSON form of the value (`pretty_shown`). The depth is that of the value itself
(`Value.depth`); the probe that finds it out counts a budget down and never below zero
(`Value.probe`).

That the text is read rests on a reader that is the inverse of the printer at every depth
(`Json.Readable.read_pretty`): it opens as many containers as the text has. A reader with a limit of
its own reads back what stays below that limit.
-/

namespace Conformance

attribute [local instance (high)] instPowNat

/-! ## The first character of JSON -/

namespace Json

theorem exists_write_eq_cons (l : Layout) (depth : Nat) (j : Json) :
    ∃ c cs, j.write l depth [] = c :: cs ∧ c ≠ 'o' ∧ c ≠ 'u' := by
  cases j with
  | int n =>
    obtain ⟨c, cs, hcs⟩ := List.exists_cons_of_ne_nil (writeInt_ne_nil n)
    have hsign : c = '-' ∨ c.isDigit := by
      have hc : c ∈ writeInt n := by
        rw [hcs]
        exact List.mem_cons_self
      unfold writeInt at hc
      split at hc
      · exact (List.mem_cons.1 hc).imp_right (isDigit_toDigits _ c)
      · exact .inr (isDigit_toDigits _ c hc)
    rw [write, List.append_nil]
    refine ⟨c, cs, hcs, ?_, ?_⟩ <;> rintro rfl <;> rcases hsign with h | h <;> cases h
  | double x =>
    rw [write, List.append_nil]
    cases x with
    | finite negative m =>
      obtain ⟨c, cs, hcs⟩ := List.exists_cons_of_ne_nil (write_double_ne_nil (.finite negative m))
      have hread := readNumber_write (x := .finite negative m) rfl stops_nil
      rw [List.append_nil, hcs] at hread
      refine ⟨c, cs, hcs, ?_, ?_⟩ <;> rintro rfl <;> cases hread
    | _ => exact ⟨_, _, rfl, by decide, by decide⟩
  | bool b => cases b <;> exact ⟨_, _, rfl, by decide, by decide⟩
  | array items => cases items <;> exact ⟨_, _, rfl, by decide, by decide⟩
  | object entries =>
    rcases entries with _ | ⟨⟨key, x⟩, entries⟩ <;> exact ⟨_, _, rfl, by decide, by decide⟩
  | _ => exact ⟨_, _, rfl, by decide, by decide⟩

theorem pretty_ne (j : Json) : j.pretty ≠ Value.placeholder ∧ j.pretty ≠ "undefined" := by
  obtain ⟨c, cs, hcs, hplaceholder, hundefined⟩ := j.exists_write_eq_cons .indented 0
  have hhead : j.pretty.toList.head? = some c := by
    rw [pretty, String.toList_ofList, hcs, List.head?_cons]
  constructor
  · intro h
    rw [h] at hhead
    exact hplaceholder (Option.some.inj hhead).symm
  · intro h
    rw [h] at hhead
    exact hundefined (Option.some.inj hhead).symm

end Json

namespace Value

/-! ## Depth -/

mutual

/-- How deep the value is nested: an empty container, like what is no container, has no depth, and
any other is one deeper than the deepest of its items or fields. -/
def depth : Value → Nat
  | array items => if items.isEmpty then 0 else 1 + itemsDepth items
  | object _ fields => if fields.isEmpty then 0 else 1 + fieldsDepth fields
  | _ => 0

def itemsDepth : List Value → Nat
  | [] => 0
  | v :: rest => max v.depth (itemsDepth rest)

def fieldsDepth : List (String × Value) → Nat
  | [] => 0
  | (_, v) :: rest => max v.depth (fieldsDepth rest)

end

mutual

/-- The probe with a subtraction that has no result at zero: what has no children is not too deep,
with no budget left everything else is, and otherwise each child is probed with one less. -/
def probe : Value → Nat → Option Bool
  | array items, budget =>
    if items.isEmpty then some false else if budget = 0 then some true else probeItems items budget
  | object _ fields, budget =>
    if fields.isEmpty then some false
    else if budget = 0 then some true else probeFields fields budget
  | _, _ => some false

def probeItems : List Value → Nat → Option Bool
  | [], _ => some false
  | v :: rest, budget => do
    if ← probe v (← budget.ppred) then some true else probeItems rest budget

def probeFields : List (String × Value) → Nat → Option Bool
  | [], _ => some false
  | (_, v) :: rest, budget => do
    if ← probe v (← budget.ppred) then some true else probeFields rest budget

end

theorem fieldsDepth_eq_itemsDepth (fields : List (String × Value)) :
    fieldsDepth fields = itemsDepth (fields.map (·.2)) := by
  induction fields with
  | nil => rfl
  | cons field rest ih => rw [fieldsDepth, ih, List.map_cons, itemsDepth]

theorem probeFields_eq_probeItems (fields : List (String × Value)) (budget : Nat) :
    probeFields fields budget = probeItems (fields.map (·.2)) budget := by
  induction fields with
  | nil => rfl
  | cons field rest ih => rw [probeFields, ih, List.map_cons, probeItems]

variable {items : List Value}

theorem itemsExceed_succ
    (h : ∀ v ∈ items, ∀ budget, v.exceedsDepth budget = decide (budget < v.depth)) (budget : Nat) :
    itemsExceed items (budget + 1) = decide (budget < itemsDepth items) := by
  induction items with
  | nil => rfl
  | cons v rest ih =>
    obtain ⟨hv, hrest⟩ := List.forall_mem_cons.1 h
    have hmax : budget < max v.depth (itemsDepth rest) ↔
        budget < v.depth ∨ budget < itemsDepth rest := by omega
    rw [itemsExceed, hv budget, ih hrest, itemsDepth, ← Bool.decide_or, decide_eq_decide.2 hmax]

theorem itemsExceed_eq
    (h : ∀ v ∈ items, ∀ budget, v.exceedsDepth budget = decide (budget < v.depth)) (budget : Nat) :
    itemsExceed items budget =
      decide (budget < if items.isEmpty then 0 else 1 + itemsDepth items) := by
  cases items with
  | nil => rfl
  | cons v rest =>
    rw [List.isEmpty_cons, if_neg Bool.false_ne_true]
    cases budget with
    | zero =>
      have hpos : 0 < 1 + itemsDepth (v :: rest) := by omega
      rw [itemsExceed, decide_eq_true hpos]
    | succ budget =>
      have hless : budget + 1 < 1 + itemsDepth (v :: rest) ↔ budget < itemsDepth (v :: rest) := by
        omega
      rw [itemsExceed_succ h, decide_eq_decide.2 hless]

theorem exceedsDepth_eq (v : Value) (budget : Nat) :
    v.exceedsDepth budget = decide (budget < v.depth) := by
  induction v using Value.induction generalizing budget with
  | array items ih => rw [exceedsDepth, depth, itemsExceed_eq ih]
  | object maker fields ih =>
    rw [exceedsDepth, depth, fieldsExceed_eq_itemsExceed, fieldsDepth_eq_itemsDepth,
      itemsExceed_eq (List.forall_mem_map.2 ih), List.isEmpty_map]
  | _ => rfl

theorem probeItems_succ (h : ∀ v ∈ items, ∀ budget, v.probe budget = some (v.exceedsDepth budget))
    (budget : Nat) : probeItems items (budget + 1) = some (itemsExceed items (budget + 1)) := by
  induction items with
  | nil => rfl
  | cons v rest ih =>
    obtain ⟨hv, hrest⟩ := List.forall_mem_cons.1 h
    have hless : (budget + 1).ppred = some budget := rfl
    rw [probeItems, itemsExceed, hless]
    simp only [bind, Option.bind, hv budget, ih hrest]
    cases v.exceedsDepth budget <;> rfl

theorem probeItems_eq (h : ∀ v ∈ items, ∀ budget, v.probe budget = some (v.exceedsDepth budget))
    (budget : Nat) :
    (if items.isEmpty then some false
      else if budget = 0 then some true else probeItems items budget) =
      some (itemsExceed items budget) := by
  cases items with
  | nil => rfl
  | cons v rest =>
    cases budget with
    | zero => rfl
    | succ budget =>
      rw [List.isEmpty_cons, if_neg Bool.false_ne_true, if_neg (Nat.succ_ne_zero budget),
        probeItems_succ h]

theorem probe_eq (v : Value) (budget : Nat) : v.probe budget = some (v.exceedsDepth budget) := by
  induction v using Value.induction generalizing budget with
  | array items ih => rw [probe, exceedsDepth, probeItems_eq ih]
  | object maker fields ih =>
    have hread := probeItems_eq (List.forall_mem_map.2 ih) budget
    rw [List.isEmpty_map] at hread
    rw [probe, exceedsDepth, probeFields_eq_probeItems, fieldsExceed_eq_itemsExceed, hread]
  | _ => rfl

/-! ## JSON forms -/

variable {v : Value} {j : Json}

theorem toJson_eq_none_iff : v.toJson = none ↔ v = .undefined ∨ ∃ f, v = .function f := by
  cases v <;> simp [toJson, jsonWith]

theorem readable_toJson (x : Double) : x.toJson.Readable := by
  rcases x.toJson_cases with ⟨-, h⟩ | ⟨n, h, hn, -⟩ | ⟨hx, h⟩
  · rw [h]
    exact .null
  · rw [h]
    unfold maxSafeInteger at hn
    exact .int ⟨by omega, by omega⟩
  · rw [h]
    exact .double hx

theorem readable_bufferJson (bytes : List UInt8) : (bufferJson bytes).Readable := by
  have hbytes : (bytesJson bytes).Readable := by
    refine .array (List.forall_mem_map.2 fun b _ => .int ?_)
    have hb := b.toNat_lt
    exact ⟨by omega, by omega⟩
  have hkeys : "data" < "type" := by decide
  exact .object (List.pairwise_pair.2 hkeys)
    (List.forall_mem_cons.2 ⟨hbytes, List.forall_mem_singleton.2 (.string "Buffer")⟩)

theorem Normal.readable (hv : v.Normal) (h : v.toJson = some j) : j.Readable := by
  rw [toJson] at h
  induction v using Value.induction generalizing j with
  | undefined => cases h
  | null => cases h; exact .null
  | bool b => cases h; exact .bool b
  | number x => cases h; exact readable_toJson x
  | string s => cases h; exact .string s
  | array items ih =>
    cases h
    rw [itemsWith_eq_map]
    refine .array fun j hj => ?_
    obtain ⟨v, hmem, rfl⟩ := List.mem_map.1 hj
    cases hv' : v.jsonWith bufferJson with
    | none => exact .null
    | some j => exact ih v hmem (normal_array_iff.1 hv v hmem) hv'
  | object maker fields ih =>
    cases h
    obtain ⟨hordered, hfields⟩ := normal_object_iff.1 hv
    rw [fieldsWith_eq_filterMap]
    refine .object ?_ fun entry hentry => ?_
    · refine hordered.filterMap _ fun x y hlt a ha b hb => ?_
      obtain ⟨-, -, rfl⟩ := Option.map_eq_some_iff.1 ha
      obtain ⟨-, -, rfl⟩ := Option.map_eq_some_iff.1 hb
      exact hlt
    · obtain ⟨field, hfield, hsome⟩ := List.mem_filterMap.1 hentry
      obtain ⟨j, hj, rfl⟩ := Option.map_eq_some_iff.1 hsome
      exact ih field hfield (hfields field hfield) hj
  | date t => cases h; exact .string _
  | buffer bytes => cases h; exact readable_bufferJson bytes
  | function f => cases h

/-! ## The text in a message -/

theorem pretty_of_lt_depth (h : maxShownDepth < v.depth) : v.pretty = placeholder := by
  rw [pretty, exceedsDepth_eq, decide_eq_true h]
  rfl

theorem pretty_of_depth_le (h : v.depth ≤ maxShownDepth) :
    v.pretty = (v.toJson.map Json.pretty).getD "undefined" := by
  rw [pretty, exceedsDepth_eq, decide_eq_false (Nat.not_lt.2 h), if_neg Bool.false_ne_true]
  cases v.toJson <;> rfl

/-- The text of a value in a message is the placeholder just when the value is nested deeper than is
shown. Of any other value it is `undefined` just when the value is undefined or a function, and else
JSON that is read as the JSON form of the value. The probe for the depth never takes from a budget
of zero. -/
theorem pretty_shown (v : Value) :
    (v.pretty = placeholder ↔ maxShownDepth < v.depth) ∧
      (v.depth ≤ maxShownDepth →
        (v.pretty = "undefined" ↔ v = .undefined ∨ ∃ f, v = .function f) ∧
        (v.Normal → ¬ (v = .undefined ∨ ∃ f, v = .function f) →
          ∃ j, v.toJson = some j ∧ Json.read v.pretty = .ok j)) ∧
      ∀ budget, v.exceedsDepth budget = decide (budget < v.depth) ∧
        v.probe budget = some (v.exceedsDepth budget) := by
  refine ⟨⟨fun htext => ?_, pretty_of_lt_depth⟩, fun hdepth => ?_,
    fun budget => ⟨v.exceedsDepth_eq budget, v.probe_eq budget⟩⟩
  · by_contra hdepth
    rw [pretty_of_depth_le (Nat.not_lt.1 hdepth)] at htext
    cases hj : v.toJson with
    | none =>
      rw [hj] at htext
      exact absurd htext (by decide)
    | some j =>
      rw [hj] at htext
      exact j.pretty_ne.1 htext
  · rw [← toJson_eq_none_iff, pretty_of_depth_le hdepth]
    cases hj : v.toJson with
    | none => exact ⟨⟨fun _ => rfl, fun _ => rfl⟩, fun _ hform => absurd rfl hform⟩
    | some j =>
      refine ⟨⟨fun htext => absurd htext j.pretty_ne.2,
        fun hnone => absurd hnone (Option.some_ne_none j)⟩, fun hnormal _ => ⟨j, rfl, ?_⟩⟩
      exact (hnormal.readable hj).read_pretty

/-- What has no JSON form of its own counts for the depth and is read back as what stands for it;
the key has to be escaped. -/
theorem pretty_shown_mixed :
    let v : Value := .object none
      [("a\"\n", .array [.undefined, .number .nan, .array []]), ("b", .function ⟨0, none⟩)]
    let j : Json := .object [("a\"\n", .array [.null, .null, .array []])]
    v.depth = 2 ∧ v.Normal ∧ v.toJson = some j ∧ Json.read v.pretty = .ok j ∧
      v.probe 1 = some true ∧ v.probe 2 = some false := by
  intro v j
  obtain ⟨-, hshown, hprobe⟩ := pretty_shown v
  have hdepth : v.depth = 2 := rfl
  have hj : v.toJson = some j := rfl
  have hempty : (array []).Normal := normal_array_iff.2 (List.forall_mem_nil _)
  have hitems : (array [.undefined, .number .nan, .array []]).Normal :=
    normal_array_iff.2 (List.forall_mem_cons.2 ⟨normal_leaf rfl rfl, List.forall_mem_cons.2
      ⟨normal_leaf rfl rfl, List.forall_mem_singleton.2 hempty⟩⟩)
  have hkeys : "a\"\n" < "b" := by decide
  have hnormal : v.Normal := normal_object_iff.2 ⟨List.pairwise_pair.2 hkeys,
    List.forall_mem_cons.2 ⟨hitems, List.forall_mem_singleton.2 (normal_leaf rfl rfl)⟩⟩
  have hform : ¬ (v = .undefined ∨ ∃ f, v = .function f) := by
    rw [← toJson_eq_none_iff, hj]
    exact Option.some_ne_none j
  obtain ⟨k, hk, hread⟩ := (hshown (by rw [hdepth]; decide)).2 hnormal hform
  obtain rfl : j = k := Option.some.inj (hj.symm.trans hk)
  have hprobed : ∀ budget, v.probe budget = some (decide (budget < 2)) := by
    intro budget
    rw [(hprobe budget).2, (hprobe budget).1, hdepth]
  exact ⟨hdepth, hnormal, hj, hread, hprobed 1, hprobed 2⟩

end Value

end Conformance
