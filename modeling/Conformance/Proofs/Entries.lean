import Conformance.Entries
import Mathlib.Data.List.Induction
import Mathlib.Data.List.Nodup
import Mathlib.Data.List.Sort

/-!
# Records that lists of entries build

A record is in order, however it was built. A list that is in order builds itself, and one that is
not, but has each key once, is sorted by its keys.
-/

namespace Conformance.Entries

variable {α β : Type} {key : String} {value : α} {entries xs ys : List (String × α)}

theorem ordered_ofList (entries : List (String × α)) : Ordered (ofList entries) := by
  rw [ofList]
  induction entries using List.reverseRecOn with
  | nil => exact .nil
  | append_singleton front entry ih =>
    rw [List.foldl_append]
    exact ordered_insert _ _ ih

theorem ofList_concat (front : List (String × α)) (entry : String × α) :
    ofList (front ++ [entry]) = insert entry.1 entry.2 (ofList front) :=
  List.foldl_append

theorem mem_of_mem_ofList {entry : String × α} (h : entry ∈ ofList entries) : entry ∈ entries := by
  induction entries using List.reverseRecOn with
  | nil => cases h
  | append_singleton front last ih =>
    rw [ofList_concat] at h
    rcases mem_insert h with rfl | h
    · simp
    · exact List.mem_append_left _ (ih h)

theorem insert_of_forall_lt (h : ∀ entry ∈ entries, entry.1 < key) :
    insert key value entries = entries ++ [(key, value)] := by
  induction entries with
  | nil => rfl
  | cons head rest ih =>
    obtain ⟨hhead, hrest⟩ := List.forall_mem_cons.1 h
    rw [insert, if_neg (String.lt_asymm hhead), if_neg (String.ne_of_lt hhead).symm, ih hrest,
      List.cons_append]

theorem ofList_of_ordered (h : Ordered entries) : ofList entries = entries := by
  induction entries using List.reverseRecOn with
  | nil => rfl
  | append_singleton front last ih =>
    obtain ⟨hfront, -, hlast⟩ := List.pairwise_append.1 h
    rw [ofList_concat, ih hfront, insert_of_forall_lt]
    exact fun entry hentry => hlast entry hentry last List.mem_cons_self

theorem nodup_of_ordered (h : Ordered entries) : (entries.map (·.1)).Nodup :=
  List.pairwise_map.2 (h.imp String.ne_of_lt)

/-! ## Looking up -/

theorem lookup_eq_some_iff (h : (entries.map (·.1)).Nodup) :
    entries.lookup key = some value ↔ (key, value) ∈ entries := by
  induction entries with
  | nil => simp
  | cons head rest ih =>
    obtain ⟨k, v⟩ := head
    obtain ⟨hhead, hrest⟩ := List.nodup_cons.1 h
    rw [lookup_cons, List.mem_cons, Prod.mk.injEq]
    split
    · next hkey =>
      subst hkey
      have hfresh : (key, value) ∉ rest := fun hmem =>
        hhead (List.mem_map.2 ⟨_, hmem, rfl⟩)
      simp [hfresh, eq_comm]
    · next hkey => simp [hkey, ih hrest]

/-- Entries with different keys are known, up to their order, by what is under the keys. -/
theorem perm_of_lookup_eq (hx : (xs.map (·.1)).Nodup) (hy : (ys.map (·.1)).Nodup)
    (h : ∀ key, xs.lookup key = ys.lookup key) : xs.Perm ys := by
  refine (List.perm_ext_iff_of_nodup (.of_map _ hx) (.of_map _ hy)).2 fun entry => ?_
  rw [← lookup_eq_some_iff hx, ← lookup_eq_some_iff hy, h]

theorem eq_of_lookup_eq (hx : Ordered xs) (hy : Ordered ys)
    (h : ∀ key, xs.lookup key = ys.lookup key) : xs = ys := by
  have hperm : xs.Perm ys := perm_of_lookup_eq (nodup_of_ordered hx) (nodup_of_ordered hy) h
  exact hperm.eq_of_pairwise (fun _ _ _ _ hlt hgt => absurd hgt (String.lt_asymm hlt)) hx hy

/-! ## Sorting -/

theorem insert_perm (h : key ∉ entries.map (·.1)) :
    (insert key value entries).Perm ((key, value) :: entries) := by
  induction entries with
  | nil => exact .refl _
  | cons head rest ih =>
    obtain ⟨hne, hrest⟩ := not_or.1 (mt List.mem_cons.2 h)
    rw [insert, if_neg hne]
    split
    · exact .refl _
    · exact ((ih hrest).cons head).trans (.swap _ _ _)

theorem ofList_perm (h : (entries.map (·.1)).Nodup) : (ofList entries).Perm entries := by
  induction entries using List.reverseRecOn with
  | nil => exact .refl _
  | append_singleton front last ih =>
    rw [List.map_append, List.nodup_append] at h
    obtain ⟨hfront, -, hlast⟩ := h
    have hperm := ih hfront
    have hnew : last.1 ∉ (ofList front).map (·.1) := fun hmem =>
      hlast _ ((hperm.map _).mem_iff.1 hmem) _ (List.mem_singleton_self _) rfl
    rw [ofList_concat]
    exact (insert_perm hnew).trans ((hperm.cons last).trans (List.perm_append_singleton ..).symm)

theorem ofList_eq_insertionSort (h : (entries.map (·.1)).Nodup) :
    ofList entries = entries.insertionSort fun x y => x.1 ≤ y.1 := by
  have hsorted : (entries.insertionSort fun x y => x.1 ≤ y.1).Perm entries :=
    List.perm_insertionSort _ entries
  have hordered : (ofList entries).Pairwise fun x y => x.1 ≤ y.1 :=
    (ordered_ofList entries).imp fun hlt => String.not_lt.1 (String.lt_asymm hlt)
  have : Std.Total fun x y : String × α => x.1 ≤ y.1 := ⟨fun _ _ => String.le_total _ _⟩
  have : IsTrans (String × α) fun x y => x.1 ≤ y.1 := ⟨fun _ _ _ => String.le_trans⟩
  refine ((ofList_perm h).trans hsorted.symm).eq_of_pairwise (fun x y hx hy hxy hyx => ?_) hordered
    (List.pairwise_insertionSort _ entries)
  exact List.inj_on_of_nodup_map h (mem_of_mem_ofList hx) (hsorted.mem_iff.1 hy)
    (String.le_antisymm hxy hyx)

theorem insert_map (f : α → β) :
    insert key (f value) (entries.map fun e => (e.1, f e.2)) =
      (insert key value entries).map fun e => (e.1, f e.2) := by
  induction entries with
  | nil => rfl
  | cons head rest ih =>
    rw [List.map_cons, insert, insert, ih]
    split
    · rfl
    · split <;> rfl

theorem lookup_map (f : α → β) (entries : List (String × α)) (name : String) :
    (entries.map fun e => (e.1, f e.2)).lookup name = (entries.lookup name).map f := by
  induction entries with
  | nil => rfl
  | cons head rest ih =>
    rw [List.map_cons, lookup_cons, lookup_cons name head.1, ih]
    split <;> rfl

theorem ofList_map (f : α → β) :
    ofList (entries.map fun e => (e.1, f e.2)) = (ofList entries).map fun e => (e.1, f e.2) := by
  induction entries using List.reverseRecOn with
  | nil => rfl
  | append_singleton front last ih =>
    rw [List.map_append, List.map_singleton, ofList_concat, ofList_concat, ih]
    exact insert_map f

end Conformance.Entries
