import Conformance.Proofs.Matching.Level
import Mathlib.Logic.Relation

/-!
# Instances of classes

Classes are told apart by the number of their declaration. In a family of classes that were declared
one after the other (`Classes.Family`) a parent has a lower number than its children, so the
numbers fall along a lineage and no class occurs in it twice. Hence descent is a partial order in
which the ancestors of one class form a chain, whatever the classes are called
(`Classes.Family.descent`).
-/

namespace Conformance

open Relation (ReflTransGen)

namespace Class

def stamp : Class → Nat
  | root stamp _ => stamp
  | derived stamp _ _ => stamp

def Extends (c d : Class) : Prop := c.parent? = some d

variable {c d e : Class}

/-! ## Lineages -/

theorem getElem?_lineage (c : Class) :
    c.lineage[0]? = some c ∧ ∀ i, c.lineage[i + 1]? = c.lineage[i]?.bind parent? := by
  induction c with
  | root stamp name =>
    refine ⟨rfl, fun i => ?_⟩
    cases i <;> rfl
  | derived stamp name parent ih =>
    refine ⟨rfl, fun i => ?_⟩
    cases i with
    | zero => exact ih.1
    | succ i => exact ih.2 i

theorem mem_lineage_iff : d ∈ c.lineage ↔ ReflTransGen Extends c d := by
  constructor
  · intro h
    induction c with
    | root stamp name =>
      obtain rfl := List.mem_singleton.1 h
      exact .refl
    | derived stamp name parent ih =>
      rcases List.mem_cons.1 h with rfl | h
      · exact .refl
      · exact .head rfl (ih h)
  · intro h
    induction h using ReflTransGen.head_induction_on with
    | refl => exact mem_lineage_self d
    | @head c p hstep _ ih =>
      cases c with
      | root stamp name => cases hstep
      | derived stamp name parent =>
        cases hstep
        exact List.mem_cons_of_mem _ ih

theorem descendsFrom_iff : c.descendsFrom d ↔ ReflTransGen Extends c d := by
  rw [descendsFrom, decide_eq_true_iff, mem_lineage_iff]

theorem descendsFrom_trans (h : c.descendsFrom d) (h' : d.descendsFrom e) : c.descendsFrom e :=
  descendsFrom_iff.2 ((descendsFrom_iff.1 h).trans (descendsFrom_iff.1 h'))

theorem descendsFrom_or_descendsFrom (h : c.descendsFrom d) (h' : c.descendsFrom e) :
    d.descendsFrom e ∨ e.descendsFrom d := by
  have hunique : Relator.RightUnique Extends := fun _ _ _ ha hb => Option.some.inj (ha.symm.trans hb)
  rw [descendsFrom_iff, descendsFrom_iff]
  exact ReflTransGen.total_of_right_unique hunique (descendsFrom_iff.1 h) (descendsFrom_iff.1 h')

/-! ## Names -/

/-- The class with other names on its line, given by the numbers of the declarations. -/
def rename (names : Nat → String) : Class → Class
  | root stamp _ => root stamp (names stamp)
  | derived stamp _ parent => derived stamp (names stamp) (parent.rename names)

@[simp] theorem stamp_rename (names : Nat → String) (c : Class) :
    (c.rename names).stamp = c.stamp := by
  cases c <;> rfl

theorem lineage_rename (names : Nat → String) (c : Class) :
    (c.rename names).lineage = c.lineage.map (rename names) := by
  induction c with
  | root stamp name => rfl
  | derived stamp name parent ih =>
    rw [lineage, List.map_cons, ← ih]
    rfl

end Class

namespace Classes

/-- Classes that were declared one after the other, each of them the first of its line or under one
that was declared before. -/
inductive Family : Classes → Prop
  | empty : Family .empty
  | declare {classes : Classes} (h : Family classes) (name : String) (parent : Option Class)
      (hparent : ∀ p ∈ parent, p ∈ classes.declared) : Family (classes.declare name parent).2

/-- The same classes by other names. -/
def rename (names : Nat → String) (classes : Classes) : Classes :=
  ⟨classes.declared.map (Class.rename names)⟩

variable {classes : Classes} {c d : Class}

theorem stamp_declare (classes : Classes) (name : String) (parent : Option Class) :
    (classes.declare name parent).1.stamp = classes.declared.length := by
  cases parent <;> rfl

theorem parent?_declare (classes : Classes) (name : String) (parent : Option Class) :
    (classes.declare name parent).1.parent? = parent := by
  cases parent <;> rfl

theorem mem_declare {name : String} {parent : Option Class} :
    c ∈ (classes.declare name parent).2.declared ↔
      c = (classes.declare name parent).1 ∨ c ∈ classes.declared :=
  List.mem_cons

theorem rename_declare (names : Nat → String) (classes : Classes) (name : String)
    (parent : Option Class) :
    (classes.declare name parent).2.rename names =
      ((classes.rename names).declare (names classes.declared.length)
        (parent.map (Class.rename names))).2 := by
  cases parent <;> simp [rename, declare, Class.rename]

namespace Family

theorem stamp_lt_length (h : classes.Family) (hc : c ∈ classes.declared) :
    c.stamp < classes.declared.length := by
  induction h with
  | empty => cases hc
  | @declare classes h name parent hparent ih =>
    show c.stamp < classes.declared.length + 1
    rcases mem_declare.1 hc with rfl | hc
    · rw [stamp_declare]
      exact Nat.lt_succ_self _
    · exact Nat.lt_succ_of_lt (ih hc)

theorem eq_of_stamp_eq (h : classes.Family) (hc : c ∈ classes.declared)
    (hd : d ∈ classes.declared) (hstamp : c.stamp = d.stamp) : c = d := by
  induction h with
  | empty => cases hc
  | @declare classes h name parent hparent ih =>
    rcases mem_declare.1 hc with rfl | hc <;> rcases mem_declare.1 hd with rfl | hd
    · rfl
    · rw [stamp_declare] at hstamp
      exact absurd hstamp (Nat.ne_of_gt (h.stamp_lt_length hd))
    · rw [stamp_declare] at hstamp
      exact absurd hstamp (Nat.ne_of_lt (h.stamp_lt_length hc))
    · exact ih hc hd

theorem parent (h : classes.Family) (hc : c ∈ classes.declared) (hstep : c.Extends d) :
    d ∈ classes.declared ∧ d.stamp < c.stamp := by
  induction h with
  | empty => cases hc
  | @declare classes h name parent hparent ih =>
    rcases mem_declare.1 hc with rfl | hc
    · rw [Class.Extends, parent?_declare] at hstep
      have hd : d ∈ classes.declared := hparent d hstep
      rw [stamp_declare]
      exact ⟨mem_declare.2 (.inr hd), h.stamp_lt_length hd⟩
    · obtain ⟨hd, hlt⟩ := ih hc
      exact ⟨mem_declare.2 (.inr hd), hlt⟩

theorem ancestor (h : classes.Family) (hc : c ∈ classes.declared) (hd : d ∈ c.lineage) :
    d ∈ classes.declared ∧ d.stamp ≤ c.stamp := by
  induction Class.mem_lineage_iff.1 hd with
  | refl => exact ⟨hc, Nat.le_refl _⟩
  | tail hsteps hstep ih =>
    obtain ⟨hmem, hle⟩ := ih (Class.mem_lineage_iff.2 hsteps)
    obtain ⟨hparent, hlt⟩ := h.parent hmem hstep
    exact ⟨hparent, by omega⟩

theorem pairwise_lineage (h : classes.Family) (hc : c ∈ classes.declared) :
    c.lineage.Pairwise fun d e => e.stamp < d.stamp := by
  induction c with
  | root stamp name => exact List.pairwise_singleton ..
  | derived stamp name parent ih =>
    obtain ⟨hparent, hlt⟩ := h.parent hc rfl
    refine List.pairwise_cons.2 ⟨fun e he => ?_, ih hparent⟩
    exact Nat.lt_of_le_of_lt (h.ancestor hparent he).2 hlt

theorem descendsFrom_antisymm (h : classes.Family) (hc : c ∈ classes.declared)
    (hd : d ∈ classes.declared) (hcd : c.descendsFrom d) (hdc : d.descendsFrom c) : c = d := by
  have hle := (h.ancestor hc (of_decide_eq_true hcd)).2
  have hge := (h.ancestor hd (of_decide_eq_true hdc)).2
  exact h.eq_of_stamp_eq hc hd (by omega)

theorem descendsFrom_iff_stamp (h : classes.Family) (hc : c ∈ classes.declared)
    (hd : d ∈ classes.declared) :
    c.descendsFrom d ↔ d.stamp ∈ c.lineage.map Class.stamp := by
  rw [Class.descendsFrom, decide_eq_true_iff, List.mem_map]
  constructor
  · exact fun hmem => ⟨d, hmem, rfl⟩
  · rintro ⟨e, he, hstamp⟩
    obtain rfl := h.eq_of_stamp_eq (h.ancestor hc he).1 hd hstamp
    exact he

theorem rename (h : classes.Family) (names : Nat → String) : (classes.rename names).Family := by
  induction h with
  | empty => exact .empty
  | @declare classes h name parent hparent ih =>
    rw [rename_declare]
    refine .declare ih _ _ fun p hp => ?_
    obtain ⟨q, hq, rfl⟩ := Option.map_eq_some_iff.1 hp
    exact List.mem_map_of_mem (hparent q hq)

theorem descendsFrom_rename (h : classes.Family) (names : Nat → String)
    (hc : c ∈ classes.declared) (hd : d ∈ classes.declared) :
    (c.rename names).descendsFrom (d.rename names) = c.descendsFrom d := by
  have hlines : (c.rename names).lineage.map Class.stamp = c.lineage.map Class.stamp := by
    rw [Class.lineage_rename, List.map_map]
    exact List.map_congr_left fun e _ => Class.stamp_rename names e
  rw [Bool.eq_iff_iff, h.descendsFrom_iff_stamp hc hd,
    (h.rename names).descendsFrom_iff_stamp (List.mem_map_of_mem hc) (List.mem_map_of_mem hd),
    hlines, Class.stamp_rename]

end Family

/-- Descent in the family: an order of classes in which the ancestors of each are on one line. -/
structure DescentOrder (classes : Classes) : Prop where
  refl : ∀ c ∈ classes.declared, c.descendsFrom c
  trans : ∀ c ∈ classes.declared, ∀ d ∈ classes.declared, ∀ e ∈ classes.declared,
    c.descendsFrom d → d.descendsFrom e → c.descendsFrom e
  antisymm : ∀ c ∈ classes.declared, ∀ d ∈ classes.declared,
    c.descendsFrom d → d.descendsFrom c → c = d
  chain : ∀ c ∈ classes.declared, ∀ d ∈ classes.declared, ∀ e ∈ classes.declared,
    c.descendsFrom d → c.descendsFrom e → d.descendsFrom e ∨ e.descendsFrom d

theorem Family.descentOrder (h : classes.Family) : classes.DescentOrder where
  refl c _ := c.descendsFrom_self
  trans _ _ _ _ _ _ := Class.descendsFrom_trans
  antisymm _ hc _ hd := h.descendsFrom_antisymm hc hd
  chain _ _ _ _ _ _ := Class.descendsFrom_or_descendsFrom

end Classes

/-- The line of a class: the class, then the parent of each for as long as there is one, and no
declaration twice. -/
structure Class.IsLine (c : Class) (cs : List Class) : Prop where
  first : cs[0]? = some c
  next : ∀ i, cs[i + 1]? = cs[i]?.bind Class.parent?
  nodup : (cs.map Class.stamp).Nodup

namespace Registry

variable {r : Registry} {c d : Class} {v : Value}

theorem assess_instanceOf (r : Registry) (c : Class) (v : Value) :
    r.assess (.instanceOf c none) v = .ok (Matching.matchInstance c none v) := rfl

theorem assess_instanceOf_eq_conforms_iff :
    r.assess (.instanceOf c none) v = .ok .conforms ↔ v.isInstanceOf c := by
  rw [assess_instanceOf, Except.ok.injEq, Matching.matchInstance_eq_conforms_iff]
  simp

theorem assess_instanceOf_of_descendsFrom (hc : c.descendsFrom d)
    (hv : r.assess (.instanceOf c none) v = .ok .conforms) :
    r.assess (.instanceOf d none) v = .ok .conforms := by
  rw [assess_instanceOf_eq_conforms_iff, Matching.isInstanceOf_iff] at hv ⊢
  obtain ⟨maker, fields, rfl, hmaker⟩ := hv
  have hdescends : maker.descendsFrom d := Class.descendsFrom_trans (decide_eq_true hmaker) hc
  exact ⟨maker, fields, rfl, of_decide_eq_true hdescends⟩

theorem assess_instanceOf_of_class?_eq_none (r : Registry) (c : Class) (hv : v.class? = none) :
    r.assess (.instanceOf c none) v = .ok (.fails
      (.ofValue (.notInstance c.name) v (Requirement.instanceOf c none).display)) := by
  have hnot : v.isInstanceOf c = false := by rw [Value.isInstanceOf, hv, Option.any_none]
  simp only [assess_instanceOf, Matching.matchInstance, hnot, Bool.false_eq_true, ↓reduceIte]

end Registry

/-- In a family of classes every line ends without coming to a class again and stays in the family.
An instance of a class is one of exactly those that parents lead to, which is a partial order with a
chain of ancestors above each class, and the same under any names. A value conforms to the
requirement of a class exactly if it is an instance of it, so it conforms to those of all ancestors
too, and a value that no class made is refused. -/
theorem Classes.Family.descent {classes : Classes} (h : classes.Family) :
    (∀ c ∈ classes.declared, c.IsLine c.lineage ∧ ∀ d ∈ c.lineage, d ∈ classes.declared) ∧
      (∀ c ∈ classes.declared, ∀ d ∈ classes.declared, ∀ fields,
        ((Value.object (some c) fields).isInstanceOf d ↔ c.descendsFrom d) ∧
          (c.descendsFrom d ↔ ReflTransGen Class.Extends c d)) ∧
      classes.DescentOrder ∧
      (∀ names, (classes.rename names).Family ∧
        ∀ c ∈ classes.declared, ∀ d ∈ classes.declared,
          ((c.rename names = d.rename names ↔ c = d) ∧
            (c.rename names).descendsFrom (d.rename names) = c.descendsFrom d)) ∧
      ∀ (r : Registry) (v : Value), ∀ d ∈ classes.declared,
        (r.assess (.instanceOf d none) v = .ok .conforms ↔ v.isInstanceOf d) ∧
        (∀ e ∈ classes.declared, d.descendsFrom e →
          r.assess (.instanceOf d none) v = .ok .conforms →
          r.assess (.instanceOf e none) v = .ok .conforms) ∧
        (v.class? = none → ∃ f, r.assess (.instanceOf d none) v = .ok (.fails f)) := by
  refine ⟨fun c hc => ⟨⟨?_, ?_, ?_⟩, ?_⟩, fun c _ d _ fields => ⟨.rfl, Class.descendsFrom_iff⟩,
    h.descentOrder, fun names => ⟨h.rename names, fun c hc d hd => ⟨⟨?_, ?_⟩, ?_⟩⟩,
    fun r v d _ => ⟨Registry.assess_instanceOf_eq_conforms_iff,
      fun e _ => Registry.assess_instanceOf_of_descendsFrom, fun hv => ?_⟩⟩
  · exact c.getElem?_lineage.1
  · exact c.getElem?_lineage.2
  · exact List.pairwise_map.2 ((h.pairwise_lineage hc).imp Nat.ne_of_gt)
  · exact fun d hd => (h.ancestor hc hd).1
  · intro hrename
    refine h.eq_of_stamp_eq hc hd ?_
    rw [← c.stamp_rename names, hrename, Class.stamp_rename]
  · exact congrArg _
  · exact h.descendsFrom_rename names hc hd
  · exact ⟨_, r.assess_instanceOf_of_class?_eq_none d hv⟩

/-- Three classes of one name, of which the second is under the first: its instances are instances
of the first, and not of the third. -/
theorem Classes.Family.descent_namesakes :
    let shape : Class := .root 0 "Shape"
    let square : Class := .derived 1 "Shape" shape
    let other : Class := .root 2 "Shape"
    Classes.Family ⟨[other, square, shape]⟩ ∧
      ∀ (r : Registry) (fields : List (String × Value)),
        r.assess (.instanceOf shape none) (.object (some square) fields) = .ok .conforms ∧
        ¬ (Value.object (some square) fields).isInstanceOf other ∧
        ∃ f, r.assess (.instanceOf shape none) (.object none fields) = .ok (.fails f) := by
  intro shape square other
  have hshape : Classes.Family ⟨[shape]⟩ := .declare .empty "Shape" none nofun
  have hsquare : Classes.Family ⟨[square, shape]⟩ :=
    .declare hshape "Shape" (some shape) fun p hp => by
      cases hp
      exact List.mem_cons_self
  have hother : Classes.Family ⟨[other, square, shape]⟩ := .declare hsquare "Shape" none nofun
  obtain ⟨-, hinstances, -, -, hconforms⟩ := hother.descent
  refine ⟨hother, fun r fields => ⟨?_, ?_, ?_⟩⟩
  · have hself : r.assess (.instanceOf square none) (.object (some square) fields) = .ok .conforms :=
      Registry.assess_instanceOf_eq_conforms_iff.2 square.descendsFrom_self
    exact (hconforms r _ square (by simp)).2.1 shape (by simp) (by decide) hself
  · rw [(hinstances square (by simp) other (by simp) fields).1]
    decide
  · exact (hconforms r _ shape (by simp)).2.2 rfl

end Conformance
