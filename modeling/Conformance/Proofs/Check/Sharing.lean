import Conformance.Check.Shared
import Conformance.Proofs.Registry.Batch

/-!
# Sharing goes unnoticed

The shared registry is copied no more often than it has to be. Who uses it sees what would be seen
if each check had a registry of its own (`Snapshots`): one call on the one is one call on the other
(`snapshots_perform`), and so are any calls (`snapshots_performAll`). A check therefore answers from
the registry that the calls before it left (`shared_isolated`).
-/

namespace Conformance

def SharedCall.isBinding : SharedCall → Bool
  | .bind _ => true
  | .chain _ | .release _ => false

/-- A registry that is not shared, after the operations of the calls. -/
def Registry.afterCalls (r : Registry) : List SharedCall → Registry
  | [] => r
  | .chain operations :: rest => (r.run operations).registry.afterCalls rest
  | .bind _ :: rest | .release _ :: rest => r.afterCalls rest

/-- A registry, and checks of which each has a registry of its own. -/
structure Snapshots where
  registry : Registry
  slots : List (Option Check)

namespace Snapshots

variable {s : Snapshots} {calls : List SharedCall}

def perform (s : Snapshots) : SharedCall → Snapshots
  | .chain operations => { s with registry := (s.registry.run operations).registry }
  | .bind v => { s with slots := s.slots ++ [some (s.registry.check v)] }
  | .release i => { s with slots := s.slots.set i none }

def performAll (s : Snapshots) (calls : List SharedCall) : Snapshots := calls.foldl perform s

theorem registry_performAll : (s.performAll calls).registry = s.registry.afterCalls calls := by
  induction calls generalizing s with
  | nil => rfl
  | cons call rest ih => cases call <;> exact ih

theorem length_slots_performAll :
    (s.performAll calls).slots.length = s.slots.length + calls.countP (·.isBinding) := by
  induction calls generalizing s with
  | nil => rfl
  | cons call rest ih =>
    have hlength : (s.perform call).slots.length =
        s.slots.length + if call.isBinding then 1 else 0 := by
      cases call with
      | chain operations => rfl
      | bind v => exact List.length_append
      | release i => exact List.length_set
    refine ih.trans ?_
    rw [hlength, List.countP_cons]
    omega

theorem getElem?_slots_performAll {i : Nat} (hi : i < s.slots.length) (h : .release i ∉ calls) :
    (s.performAll calls).slots[i]? = s.slots[i]? := by
  induction calls generalizing s with
  | nil => rfl
  | cons call rest ih =>
    obtain ⟨hcall, hrest⟩ := not_or.1 (mt List.mem_cons.2 h)
    have hslots : i < (s.perform call).slots.length ∧ (s.perform call).slots[i]? = s.slots[i]? := by
      cases call with
      | chain operations => exact ⟨hi, rfl⟩
      | bind v =>
        exact ⟨List.length_append ▸ Nat.lt_add_right _ hi, List.getElem?_append_left hi⟩
      | release j =>
        have hne : j ≠ i := fun hj => hcall (hj ▸ rfl)
        exact ⟨List.length_set.symm ▸ hi, List.getElem?_set_ne hne⟩
    exact (ih hslots.1 hrest).trans hslots.2

theorem getElem?_slots_bind {before after : List SharedCall} {v : Value} {i : Nat}
    (hi : i = s.slots.length + before.countP (·.isBinding)) (h : .release i ∉ after) :
    (s.performAll (before ++ .bind v :: after)).slots[i]? =
      some (some ((s.registry.afterCalls before).check v)) := by
  have hsplit : s.performAll (before ++ .bind v :: after) =
      ((s.performAll before).perform (.bind v)).performAll after := List.foldl_append
  rw [← length_slots_performAll] at hi
  have hbound : ((s.performAll before).perform (.bind v)).slots[i]? =
      some (some ((s.performAll before).registry.check v)) := by
    rw [hi]
    exact List.getElem?_concat_length
  have hlt : i < ((s.performAll before).perform (.bind v)).slots.length :=
    (List.getElem?_eq_some_iff.1 hbound).1
  rw [hsplit, getElem?_slots_performAll hlt h, hbound, registry_performAll]

end Snapshots

namespace Shared

variable {s s' : Shared} {op : Operation}

def snapshots (s : Shared) : Snapshots := ⟨s.current, s.slots⟩

theorem slots_congr (hheld : s'.held = s.held)
    (hread : ∀ h : Held, some h ∈ s.held → s'.read h.place = s.read h.place) :
    s'.slots = s.slots := by
  rw [slots, slots, hheld]
  refine List.map_congr_left fun slot hslot => ?_
  cases slot with
  | none => rfl
  | some h => simp only [Option.map_some, hread h hslot]

/-! ## Copies -/

theorem current_unshare (s : Shared) : s.unshare.current = s.current := by
  unfold unshare
  split <;> rfl

theorem held_unshare (s : Shared) : s.unshare.held = s.held := by
  unfold unshare
  split <;> rfl

theorem read_append {place : Nat} (h : place ≤ s.older.length) (r : Registry) :
    (s.older ++ [s.current])[place]?.getD r = s.read place := by
  rcases Nat.lt_or_eq_of_le h with hlt | rfl
  · rw [List.getElem?_append_left hlt, read, List.getElem?_eq_getElem hlt]
    rfl
  · rw [List.getElem?_concat_length, read, List.getElem?_eq_none (Nat.le_refl _)]
    rfl

/-- Once the registry is unshared it may become any other, and the checks do not notice. -/
theorem read_unshare {h : Held} (hmem : some h ∈ s.held) (r : Registry) :
    s.unshare.older[h.place]?.getD r = s.read h.place := by
  have hle := s.place_le h hmem
  unfold unshare
  split
  · exact read_append hle r
  · rename_i hnone
    -- No check refers to the registry in use, so this one refers to an older one.
    have hlt : h.place < s.older.length := by
      refine Nat.lt_of_le_of_ne hle fun heq => hnone ?_
      exact List.any_eq_true.2 ⟨some h, hmem, beq_iff_eq.2 heq⟩
    rw [read, List.getElem?_eq_getElem hlt]
    rfl

theorem update_eq_apply (s : Shared) (op : Operation) :
    ∃ t, s.update op = (t, (s.current.apply op).events, (s.current.apply op).error) ∧
      t.snapshots = ⟨(s.current.apply op).registry, s.slots⟩ := by
  refine ⟨{ s.unshare with current := (s.current.apply op).registry }, ?_, ?_⟩
  · rw [update, current_unshare]
  · exact congrArg (Snapshots.mk _)
      (slots_congr s.held_unshare fun _ hmem => read_unshare hmem _)

/-- A chain does to the registry what it does to one that is not shared, with the same events and
the same error, and nothing to the checks. -/
theorem updateAll_eq_run (s : Shared) (operations : List Operation) :
    (s.updateAll operations).1.snapshots = ⟨(s.current.run operations).registry, s.slots⟩ ∧
      (s.updateAll operations).2 =
        ((s.current.run operations).events, (s.current.run operations).error) := by
  -- The rest of the chain starts from a state that is known only as it is seen from outside.
  induction operations generalizing s with
  | nil => exact ⟨rfl, rfl⟩
  | cons op rest ih =>
    obtain ⟨t, hupdate, ht⟩ := s.update_eq_apply op
    rw [updateAll, Registry.run, hupdate]
    cases herror : (s.current.apply op).error with
    | some e =>
      rw [Run.andThen_of_error herror, herror]
      exact ⟨ht, rfl⟩
    | none =>
      obtain ⟨hcurrent, hslots⟩ := Snapshots.mk.inj ht
      obtain ⟨hlater, hreport⟩ := ih t
      rw [hcurrent, hslots] at hlater
      rw [hcurrent] at hreport
      rw [Run.andThen_of_end herror]
      exact ⟨hlater, by simp only [hreport]⟩

/-! ## Calls -/

theorem slots_bind (s : Shared) (v : Value) :
    (s.bind v).slots = s.slots ++ [some (s.current.check v)] := by
  have hread : s.read s.older.length = s.current := by
    rw [read, List.getElem?_eq_none (Nat.le_refl _)]
    rfl
  rw [← hread]
  exact List.map_append

theorem snapshots_perform (s : Shared) (call : SharedCall) :
    (s.perform call).1.snapshots = s.snapshots.perform call := by
  cases call with
  | chain operations => exact (s.updateAll_eq_run operations).1
  | bind v => exact congrArg (Snapshots.mk s.current) (slots_bind s v)
  | release i => exact congrArg (Snapshots.mk s.current) List.map_set

theorem snapshots_performAll (s : Shared) (calls : List SharedCall) :
    (s.performAll calls).snapshots = s.snapshots.performAll calls := by
  induction calls generalizing s with
  | nil => rfl
  | cons call rest ih =>
    refine (ih _).trans ?_
    rw [snapshots_perform]
    rfl

theorem snapshots_perform_of_error {e : ConfigurationError}
    (h : (s.perform (.chain [op])).2.2 = some e) :
    (s.perform (.chain [op])).1.snapshots = s.snapshots := by
  obtain ⟨hsnapshots, hreport⟩ := s.updateAll_eq_run [op]
  rw [Registry.run_singleton] at hsnapshots hreport
  have herror : (s.current.apply op).error = some e := (congrArg Prod.snd hreport).symm.trans h
  rw [Registry.apply_of_error herror] at hsnapshots
  exact hsnapshots

theorem current_performAll (calls : List SharedCall) :
    (performAll {} calls).current = (Registry.withSettings {}).afterCalls calls :=
  (congrArg Snapshots.registry (snapshots_performAll {} calls)).trans Snapshots.registry_performAll

/-- Checks of the shared registry are isolated from what is done after them. Each that was bound and
not given up, and each that could be taken now, is the check of a registry that is not shared, after
the calls before it; operations have the events and the error that they have there; and one that
fails might as well not have been tried. -/
theorem shared_isolated (calls : List SharedCall) :
    let s := performAll {} calls
    let alone := (Registry.withSettings {}).afterCalls
    (∀ before v after, calls = before ++ .bind v :: after →
      .release (before.countP (·.isBinding)) ∉ after →
      s.check? (before.countP (·.isBinding)) = some ((alone before).check v)) ∧
    (∀ v, s.check v = (alone calls).check v) ∧
    (∀ operations, (s.perform (.chain operations)).2 =
      (((alone calls).run operations).events, ((alone calls).run operations).error)) ∧
    ∀ op e, (s.perform (.chain [op])).2.2 = some e → ∀ later,
      (s.performAll (.chain [op] :: later)).current = (s.performAll later).current ∧
      ∀ i, (s.performAll (.chain [op] :: later)).check? i = (s.performAll later).check? i := by
  intro s alone
  have hcurrent : s.current = alone calls := current_performAll calls
  refine ⟨?_, fun v => ?_, fun operations => ?_, fun op e herror later => ?_⟩
  · intro before v after hcalls hkept
    have hbound := Snapshots.getElem?_slots_bind (s := snapshots {}) (v := v)
      (Nat.zero_add _).symm hkept
    rw [← hcalls, ← snapshots_performAll] at hbound
    exact congrArg Option.join hbound
  · rw [check, hcurrent]
  · rw [← hcurrent]
    exact (s.updateAll_eq_run operations).2
  · have hsame : (s.performAll (.chain [op] :: later)).snapshots = (s.performAll later).snapshots :=
      calc
        _ = (s.perform (.chain [op])).1.snapshots.performAll later := snapshots_performAll _ later
        _ = s.snapshots.performAll later := by rw [snapshots_perform_of_error herror]
        _ = (s.performAll later).snapshots := (s.snapshots_performAll later).symm
    exact ⟨congrArg Snapshots.registry hsame,
      fun i => congrArg (fun t : Snapshots => t.slots[i]?.join) hsame⟩

/-- A type is redefined while a check of it is held. The redefinition is refused at first, and then
takes place in a copy, which the next check refers to and the first does not. -/
theorem shared_isolated_redefinition :
    let id : Source := .built (.type (.named "id" false))
    let redefine : Operation := .register "id" (.built (.type (.named "boolean" false)))
    let first : List SharedCall :=
      [.chain [.register "id" (.built (.type (.named "string" false)))], .bind (.string "k")]
    let later : List SharedCall := [.chain [.allowOverwriting, redefine], .bind (.string "k")]
    let s := performAll {} (first ++ .chain [redefine] :: later)
    s.older.length = 1 ∧
      (∃ c, s.check? 0 = some c ∧ c.conforms id = .ok true ∧ (c.assertIs id none).1 = .ok ()) ∧
      (∃ c, s.check? 1 = some c ∧ c.conforms id = .ok false) ∧
      ∀ i, s.check? i = ((performAll {} first).performAll later).check? i := by
  intro id redefine first later s
  obtain ⟨hbound, -, -, -⟩ := shared_isolated (first ++ .chain [redefine] :: later)
  obtain ⟨-, -, -, hfailed⟩ := shared_isolated first
  refine ⟨rfl,
    ⟨_, hbound (first.take 1) (.string "k") (.chain [redefine] :: later) rfl ?_, rfl, rfl⟩,
    ⟨_, hbound (first ++ .chain [redefine] :: later.take 1) (.string "k") [] rfl ?_, rfl⟩, ?_⟩
  · simp [later]
  · simp
  · have hsplit : s = (performAll {} first).performAll (.chain [redefine] :: later) :=
      List.foldl_append
    rw [hsplit]
    exact (hfailed redefine (.duplicateName "id") rfl later).2

end Shared

end Conformance
