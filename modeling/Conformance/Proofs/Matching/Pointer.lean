import Conformance.Proofs.Json.Numerals
import Conformance.Proofs.Matching.Blame

/-!
# The pointer of a failure

A pointer writes the steps of a path behind slashes, with the slashes and tildes of field names
escaped. Taking it apart at the slashes and undoing the escapes gives the steps back, as texts
(`splitOn_pointer`, `unescape_write`). The texts alone do not tell an index from a field whose name
is a number, but the value does: in a value, the pointer of a failure leads to the same part as its
path, and to no other path (`pointer_unambiguous`).
-/

namespace Conformance

open PathSegment

/-! ## Undoing the escapes -/

/-- Each place where the two characters follow one another, from the left, becomes the third. -/
def contract (first second single : Char) : List Char → List Char
  | c :: d :: rest =>
    if c = first ∧ d = second then single :: contract first second single rest
    else c :: contract first second single (d :: rest)
  | cs => cs

/-- A token of a pointer as it was before it was escaped: first the slashes, then the tildes. -/
def unescape (cs : List Char) : List Char := contract '~' '0' '~' (contract '~' '1' '/' cs)

section Contract

variable {first second single c : Char}

theorem contract_pair (rest : List Char) :
    contract first second single (first :: second :: rest) =
      single :: contract first second single rest := by
  rw [contract, if_pos ⟨rfl, rfl⟩]

theorem contract_cons_of_ne (h : c ≠ first) (rest : List Char) :
    contract first second single (c :: rest) = c :: contract first second single rest := by
  cases rest with
  | nil => rfl
  | cons d rest => rw [contract, if_neg fun hpair => h hpair.1]

theorem contract_first_of_ne (h : c ≠ second) (rest : List Char) :
    contract first second single (first :: c :: rest) =
      first :: contract first second single (c :: rest) := by
  rw [contract, if_neg fun hpair => h hpair.2]

theorem contract_of_not_mem {cs : List Char} (h : first ∉ cs) :
    contract first second single cs = cs := by
  induction cs with
  | nil => rfl
  | cons c cs ih =>
    obtain ⟨hc, hcs⟩ := not_or.1 (mt List.mem_cons.2 h)
    rw [contract_cons_of_ne (Ne.symm hc), ih hcs]

end Contract

def escapeTilde (c : Char) : List Char := if c = '~' then ['~', '0'] else [c]

/-- The slashes come back, and each tilde keeps the digit that tells it from an escaped slash. -/
theorem contract_slash (cs : List Char) :
    contract '~' '1' '/' (cs.flatMap escape) = cs.flatMap escapeTilde := by
  induction cs with
  | nil => rfl
  | cons c cs ih =>
    rw [List.flatMap_cons, List.flatMap_cons, ← ih, escape, escapeTilde]
    split
    · show contract '~' '1' '/' ('~' :: '0' :: cs.flatMap escape) = _
      rw [contract_first_of_ne (by decide), contract_cons_of_ne (by decide)]
      rfl
    · next htilde =>
      split
      · next hslash =>
        subst hslash
        exact contract_pair _
      · exact contract_cons_of_ne htilde _

theorem contract_tilde (cs : List Char) :
    contract '~' '0' '~' (cs.flatMap escapeTilde) = cs := by
  induction cs with
  | nil => rfl
  | cons c cs ih =>
    rw [List.flatMap_cons, escapeTilde]
    split
    · next htilde =>
      subst htilde
      exact (contract_pair _).trans (congrArg _ ih)
    · next htilde => exact (contract_cons_of_ne htilde _).trans (congrArg _ ih)

def PathSegment.token : PathSegment → List Char
  | index i => Nat.toDigits 10 i
  | field name => name.toList

theorem unescape_write (s : PathSegment) : unescape s.write = s.token := by
  unfold unescape
  cases s with
  | index i =>
    have hdigits : '~' ∉ Nat.toDigits 10 i :=
      fun h => absurd (Json.isDigit_toDigits i _ h) (by decide)
    rw [write, token, contract_of_not_mem hdigits, contract_of_not_mem hdigits]
  | field name => rw [write, token, contract_slash, contract_tilde]

/-! ## Taking a pointer apart -/

theorem slash_not_mem_write (s : PathSegment) : '/' ∉ s.write := by
  cases s with
  | index i => exact fun h => absurd (Json.isDigit_toDigits i _ h) (by decide)
  | field name =>
    intro h
    obtain ⟨c, -, hc⟩ := List.mem_flatMap.1 h
    unfold escape at hc
    split at hc
    · revert hc
      decide
    · split at hc
      · revert hc
        decide
      · next hslash => exact hslash (List.mem_singleton.1 hc).symm

theorem splitOn_append_writePointer {cs : List Char} (h : '/' ∉ cs) (path : List PathSegment) :
    (cs ++ Failure.writePointer path).splitOn '/' = cs :: path.map write := by
  induction path generalizing cs with
  | nil => rw [Failure.writePointer, List.append_nil, List.splitOn_eq_singleton h, List.map_nil]
  | cons s path ih =>
    rw [Failure.writePointer, List.splitOn_append_cons_self_of_not_mem h,
      ih (slash_not_mem_write s), List.map_cons]

theorem splitOn_pointer (f : Failure) : f.pointer.toList.splitOn '/' = [] :: f.path.map write := by
  unfold Failure.pointer
  rw [String.toList_ofList]
  exact splitOn_append_writePointer List.not_mem_nil f.path

/-! ## Following a pointer -/

/-- The index that a token writes: decimal digits, without a zero in front of others. -/
def arrayIndex? (token : List Char) : Option Nat :=
  match Json.readWhole token with
  | .ok (digits, []) => some (Json.digitsValue digits)
  | _ => none

namespace Value

def member? (token : List Char) : Value → Option Value
  | array items => (arrayIndex? token).bind (items[·]?)
  | object _ fields => fields.lookup (String.ofList token)
  | _ => none

def resolve? (v : Value) : List (List Char) → Option Value
  | [] => some v
  | token :: rest => (v.member? token).bind (·.resolve? rest)

/-- The part that a JSON pointer refers to. The pointer is empty, or each of its tokens follows a
slash. -/
def evaluate? (v : Value) (pointer : String) : Option Value :=
  match pointer.toList.splitOn '/' with
  | [] :: tokens => v.resolve? (tokens.map unescape)
  | _ => none

variable {v w : Value}

theorem arrayIndex?_toDigits (i : Nat) : arrayIndex? (Nat.toDigits 10 i) = some i := by
  have hread := (Json.isWhole_toDigits i).readWhole_append Json.stops_nil
  rw [List.append_nil] at hread
  unfold arrayIndex?
  rw [hread]
  exact congrArg some (Json.digitsValue_toDigits i)

theorem field?_of_present? {name : String} (h : v.present? name = some w) :
    v.field? name = some w :=
  (Option.filter_eq_some_iff.1 h).1

theorem member?_of_step? {s : PathSegment} (h : v.step? s = some w) :
    v.member? s.token = some w := by
  cases s with
  | index i =>
    obtain ⟨items, hitems, hw⟩ := Option.bind_eq_some_iff.1 h
    rw [items?_eq_some_iff.1 hitems, member?, token, arrayIndex?_toDigits]
    exact hw
  | field name =>
    obtain ⟨fields, hfields, hw⟩ := Option.bind_eq_some_iff.1 (field?_of_present? h)
    cases v with
    | object maker own =>
      cases hfields
      rw [member?, token, String.ofList_toList]
      exact hw
    | _ => cases hfields

theorem resolve?_of_follow? {path : List PathSegment} (h : v.follow? path = some w) :
    v.resolve? (path.map token) = some w := by
  induction path generalizing v with
  | nil => exact h
  | cons s path ih =>
    obtain ⟨u, hstep, hrest⟩ := Option.bind_eq_some_iff.1 h
    rw [List.map_cons, resolve?, member?_of_step? hstep]
    exact ih hrest

/-- In a value that has both parts, steps with one text are one step: only an array has items, and
only an object has fields. -/
theorem eq_of_token_eq {u : Value} {s t : PathSegment} (hs : v.step? s = some u)
    (ht : v.step? t = some w) (htoken : s.token = t.token) : s = t := by
  have hnot : ∀ {i name u w}, v.step? (.index i) = some u → v.step? (.field name) = some w →
      False := by
    intro i name u w hindex hfield
    obtain ⟨items, hitems, -⟩ := Option.bind_eq_some_iff.1 hindex
    rw [items?_eq_some_iff.1 hitems] at hfield
    cases hfield
  cases s with
  | index i =>
    cases t with
    | index j =>
      have hvalue := congrArg Json.digitsValue htoken
      rw [token, token, Json.digitsValue_toDigits, Json.digitsValue_toDigits] at hvalue
      rw [hvalue]
    | field name => exact (hnot hs ht).elim
  | field name =>
    cases t with
    | index j => exact (hnot ht hs).elim
    | field other => rw [String.toList_inj.1 htoken]

theorem eq_of_map_token_eq {u : Value} {path other : List PathSegment}
    (hpath : v.follow? path = some u) (hother : v.follow? other = some w)
    (htokens : path.map token = other.map token) : path = other := by
  induction path generalizing v other with
  | nil => exact (List.map_eq_nil_iff.1 htokens.symm).symm
  | cons s path ih =>
    cases other with
    | nil => cases htokens
    | cons t other =>
      obtain ⟨htoken, hrest⟩ := List.cons.inj htokens
      obtain ⟨v', hs, hpath⟩ := Option.bind_eq_some_iff.1 hpath
      obtain ⟨w', ht, hother⟩ := Option.bind_eq_some_iff.1 hother
      obtain rfl := eq_of_token_eq hs ht htoken
      obtain rfl := Option.some.inj (hs.symm.trans ht)
      rw [ih hpath hother hrest]

end Value

/-- The pointer of a failure, taken apart at the slashes and with the escapes undone, gives the
texts of the path's steps. In the value that failed, it refers to the part at the end of the path;
and no other path of a failure of that value has the same pointer. -/
theorem Failure.pointer_unambiguous (f : Failure) :
    (∃ tokens, f.pointer.toList.splitOn '/' = [] :: tokens ∧
      tokens.map unescape = f.path.map token) ∧
    ∀ (r : Registry) (q : Requirement) (v : Value), r.assess q v = .ok (.fails f) →
      (∃ w, v.follow? f.path = some w ∧ v.evaluate? f.pointer = some w) ∧
      ∀ (r' : Registry) (q' : Requirement) (g : Failure), r'.assess q' v = .ok (.fails g) →
        f.pointer = g.pointer → f.path = g.path := by
  have hdecode : ∀ f : Failure, (f.path.map write).map unescape = f.path.map token := by
    intro f
    rw [List.map_map]
    exact List.map_congr_left fun s _ => unescape_write s
  refine ⟨⟨_, splitOn_pointer f, hdecode f⟩, fun r q v h => ⟨?_, fun r' q' g hg hpointer => ?_⟩⟩
  · obtain ⟨w, -, hw, -⟩ := Matching.reproducible_of_matchWithin (Nat.le_refl _) h
    refine ⟨w, hw, ?_⟩
    unfold Value.evaluate?
    rw [splitOn_pointer f]
    show v.resolve? ((f.path.map write).map unescape) = some w
    rw [hdecode f]
    exact Value.resolve?_of_follow? hw
  · obtain ⟨w, -, hw, -⟩ := Matching.reproducible_of_matchWithin (Nat.le_refl _) h
    obtain ⟨w', -, hw', -⟩ := Matching.reproducible_of_matchWithin (Nat.le_refl _) hg
    have hpieces := splitOn_pointer f
    rw [hpointer, splitOn_pointer g] at hpieces
    have htokens : f.path.map token = g.path.map token := by
      rw [← hdecode f, ← hdecode g, (List.cons.inj hpieces).2]
    exact Value.eq_of_map_token_eq hw hw' htokens

/-- Without a value the texts of the steps do not tell them apart. -/
example : (index 0).token = (field "0").token := by decide

/-- The place of the failure is an item of a field whose name is escaped, in a field without a
name. -/
theorem Failure.pointer_unambiguous_escaped :
    let r := Registry.withSettings {}
    let v : Value := .object none
      [("", .object none [("~1/", .array [.string "here", .null])])]
    let f : Failure := ⟨.wrongPrimitiveKind .string .object, Value.null.pretty,
      (Requirement.type (.named "string" false)).display, [.field "", .field "~1/", .index 1]⟩
    r.assess (.shape [("", .shape [("~1/", .type (.array (.named "string" false) false))])]) v =
        .ok (.fails f) ∧
      f.pointer = "//~01~1/1" ∧ v.evaluate? "//~01~1/1" = some .null ∧
      ∀ g : Failure,
        r.assess (.shape [("", .shape [("~1/", .type (.array (.named "string" false) true))])]) v =
          .ok (.fails g) → g.pointer = "//~01~1/1" → g.path = f.path := by
  intro r v f
  have hassess : r.assess
      (.shape [("", .shape [("~1/", .type (.array (.named "string" false) false))])]) v =
        .ok (.fails f) := rfl
  have hpointer : f.pointer = "//~01~1/1" := by decide
  obtain ⟨-, h⟩ := f.pointer_unambiguous
  obtain ⟨⟨w, hw, hevaluate⟩, hunique⟩ := h r _ v hassess
  obtain rfl : Value.null = w := Option.some.inj hw
  rw [hpointer] at hevaluate
  exact ⟨hassess, hpointer, hevaluate, fun g hg htext =>
    (hunique r _ g hg (hpointer.trans htext.symm)).symm⟩

end Conformance
