/-!
# Entries in the order of their keys

A record is kept as a list of entries in increasing order of its keys (the order of code points),
each key once, so that equal records are equal lists. `insert` keeps the order, and a later value
replaces an earlier one. Reading is `List.lookup`.
-/

namespace Conformance

/-- The keys increase strictly. -/
def Ordered {α : Type u} (entries : List (String × α)) : Prop :=
  entries.Pairwise (·.1 < ·.1)

namespace Entries

variable {α : Type u}

/-- Put `value` under `key`, replacing the value that was there. -/
def insert (key : String) (value : α) : List (String × α) → List (String × α)
  | [] => [(key, value)]
  | (k, v) :: rest =>
    if key < k then (key, value) :: (k, v) :: rest
    else if key = k then (key, value) :: rest
    else (k, v) :: insert key value rest

/-- The record that a list of entries builds, from left to right. -/
def ofList (entries : List (String × α)) : List (String × α) :=
  entries.foldl (fun record e => insert e.1 e.2 record) []

theorem lt_of_not_lt_of_ne {a b : String} (h : ¬ a < b) (hne : a ≠ b) : b < a := by
  rcases String.le_total a b with hab | hba
  · exact absurd (String.le_antisymm hab (String.not_lt.1 h)) hne
  · exact Decidable.byContradiction fun hn => hne (String.le_antisymm (String.not_lt.1 hn) hba)

theorem mem_insert {key : String} {value : α} {e : String × α} {entries : List (String × α)}
    (h : e ∈ insert key value entries) : e = (key, value) ∨ e ∈ entries := by
  induction entries with
  | nil => exact .inl (by simpa [insert] using h)
  | cons head rest ih =>
    obtain ⟨k, v⟩ := head
    simp only [insert] at h
    split at h
    · exact List.mem_cons.1 h
    · split at h
      · exact (List.mem_cons.1 h).imp_right (List.mem_cons_of_mem _)
      · rcases List.mem_cons.1 h with rfl | h
        · exact .inr List.mem_cons_self
        · exact (ih h).imp_right (List.mem_cons_of_mem _)

theorem ordered_insert (key : String) (value : α) {entries : List (String × α)}
    (h : Ordered entries) : Ordered (insert key value entries) := by
  induction entries with
  | nil => exact List.pairwise_singleton ..
  | cons head rest ih =>
    obtain ⟨k, v⟩ := head
    obtain ⟨hhead, hrest⟩ := List.pairwise_cons.1 h
    simp only [insert]
    split
    · rename_i hlt
      refine List.pairwise_cons.2 ⟨fun e he => ?_, h⟩
      rcases List.mem_cons.1 he with rfl | he
      · exact hlt
      · exact String.lt_trans hlt (hhead e he)
    · split
      · rename_i heq
        exact List.pairwise_cons.2 ⟨fun e he => heq ▸ hhead e he, hrest⟩
      · rename_i hnlt hne
        refine List.pairwise_cons.2 ⟨fun e he => ?_, ih hrest⟩
        rcases mem_insert he with rfl | he
        · exact lt_of_not_lt_of_ne hnlt hne
        · exact hhead e he

theorem lookup_cons (name key : String) (value : α) (rest : List (String × α)) :
    ((key, value) :: rest).lookup name = if name = key then some value else rest.lookup name := by
  by_cases h : name = key
  · simp [h]
  · simp only [List.lookup_cons, beq_false_of_ne h, if_neg h]

theorem lookup_insert (key name : String) (value : α) (entries : List (String × α)) :
    (insert key value entries).lookup name =
      if name = key then some value else entries.lookup name := by
  induction entries with
  | nil => simp only [insert, lookup_cons]
  | cons head rest ih =>
    obtain ⟨k, v⟩ := head
    simp only [insert]
    split
    · rw [lookup_cons]
    · split
      · rename_i heq
        subst heq
        simp only [lookup_cons]
        split <;> rfl
      · simp only [lookup_cons, ih]
        split <;> split <;> simp_all

end Entries

end Conformance
