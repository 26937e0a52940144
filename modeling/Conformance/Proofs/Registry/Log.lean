import Conformance.Proofs.Entries
import Conformance.Proofs.Registry.History
import Mathlib.Data.Finset.Sort
import Mathlib.Data.String.Basic

/-!
# The log of a registry

Who reads the events of a registry, and nothing else, knows its names. An `Account` is what such a
reader has gathered so far, and a log `Leads` from one account to another if each of its events
agrees with the account before it. One operation reports such a log (`Effect.leads`), so
every sequence of operations does (`leads_log`, `log_faithful`).
-/

namespace Conformance

/-- What events tell of a registry: its names, and whether overwriting is allowed. -/
structure Account where
  names : Finset String
  overwriting : Bool

namespace Account

variable {a b c : Account} {e : Event} {log later before after : List Event}

def enter (a : Account) : Event → Account
  | .registered name _ => { a with names := insert name a.names }
  | .cleared _ => { a with names := ∅ }
  | .overwritingEnabled => { a with overwriting := true }
  | .checkFailed _ | .unusableRequirement _ => a

/-- What the event says of the registry before it is true. Events of checks are not expected. -/
def Agrees (a : Account) : Event → Prop
  | .registered name replaced => replaced = true ↔ name ∈ a.names
  | .cleared count => count = a.names.card
  | .overwritingEnabled => a.overwriting = false
  | .checkFailed _ | .unusableRequirement _ => False

def replay (a : Account) (log : List Event) : Account := log.foldl enter a

/-- The events lead from one account to the other, and each agrees with the account before it. -/
inductive Leads : Account → List Event → Account → Prop
  | nil {a : Account} : Leads a [] a
  | cons {a b : Account} {e : Event} {log : List Event} (agrees : a.Agrees e)
      (leads : Leads (a.enter e) log b) : Leads a (e :: log) b

namespace Leads

theorem append (h : Leads a log b) (h' : Leads b later c) : Leads a (log ++ later) c := by
  induction h with
  | nil => exact h'
  | cons agrees _ ih => exact .cons agrees (ih h')

theorem replay_eq (h : Leads a log b) : a.replay log = b := by
  induction h with
  | nil => rfl
  | cons _ _ ih => exact ih

theorem agrees (h : Leads a (before ++ e :: after) b) : (a.replay before).Agrees e := by
  induction before generalizing a with
  | nil =>
    cases h with
    | cons agrees _ => exact agrees
  | cons _ _ ih =>
    cases h with
    | cons _ leads => exact ih leads

end Leads

theorem overwriting_replay (h : a.overwriting = true ∨ .overwritingEnabled ∈ log) :
    (a.replay log).overwriting = true := by
  induction log generalizing a with
  | nil => exact h.resolve_right List.not_mem_nil
  | cons e log ih =>
    refine ih ?_
    rw [List.mem_cons, ← or_assoc] at h
    refine h.imp_left ?_
    rintro (ha | rfl)
    · cases e with
      | registered | cleared | checkFailed | unusableRequirement => exact ha
      | overwritingEnabled => rfl
    · rfl

theorem Leads.not_enabled_before (h : Leads a (before ++ .overwritingEnabled :: after) b) :
    a.overwriting = false ∧ .overwritingEnabled ∉ before := by
  have hoff : (a.replay before).overwriting = false := h.agrees
  have hnone := mt overwriting_replay (Bool.eq_false_iff.1 hoff)
  exact ⟨Bool.eq_false_iff.2 (not_or.1 hnone).1, (not_or.1 hnone).2⟩

theorem Leads.not_enabled_after (h : Leads a (before ++ .overwritingEnabled :: after) b) :
    .overwritingEnabled ∉ after := by
  -- A second such event would agree with an account in which overwriting is allowed already.
  intro hmem
  obtain ⟨first, second, rfl⟩ := List.append_of_mem hmem
  rw [← List.cons_append, ← List.append_assoc] at h
  exact h.not_enabled_before.2 (List.mem_append_right _ List.mem_cons_self)

end Account

namespace Registry

variable {r : Registry}

/-- The events of operations one after the other, whether they take place or fail. -/
def log (r : Registry) : List Operation → List Event
  | [] => []
  | op :: rest => (r.apply op).events ++ (r.apply op).registry.log rest

theorem log_append (r : Registry) (operations later : List Operation) :
    r.log (operations ++ later) = r.log operations ++ (r.after operations).log later := by
  induction operations generalizing r with
  | nil => rfl
  | cons op rest ih =>
    rw [List.cons_append, log, log, ih, List.append_assoc]
    rfl

def account (r : Registry) : Account := ⟨r.names.toFinset, r.settings.allowOverwrite⟩

theorem nodup_names (r : Registry) : r.names.Nodup := Entries.nodup_of_ordered r.ordered

theorem card_account (r : Registry) : r.account.names.card = r.size := by
  rw [account, List.toFinset_card_of_nodup r.nodup_names, names, List.length_map, size]

theorem sort_account (r : Registry) : r.account.names.sort = r.names := by
  refine (List.toFinset_sort _ r.nodup_names).2 ?_
  exact List.pairwise_map.2 (r.ordered.imp le_of_lt)

theorem account_insert (r : Registry) (name : String) (q : Requirement) (replaced : Bool) :
    (r.insert name q).account = r.account.enter (.registered name replaced) := by
  have hnames : (r.insert name q).names.toFinset =
      (r.account.enter (.registered name replaced)).names := by
    ext n
    rw [Account.enter, account, Finset.mem_insert, List.mem_toFinset, List.mem_toFinset,
      mem_names_iff, mem_names_iff, get?_insert]
    by_cases h : n = name <;> simp [h]
  rw [account, hnames]
  rfl

/-! ## Each operation -/

theorem leads_registered (r : Registry) (name : String) (q : Requirement) :
    r.account.Leads [.registered name (r.get? name).isSome] (r.insert name q).account := by
  rw [account_insert]
  refine .cons ?_ .nil
  rw [Account.Agrees, account, List.mem_toFinset, mem_names_iff]

theorem leads_run_registrations {entries : List (String × Source)}
    (h : (r.run (registrations entries)).error = none) :
    r.account.Leads (r.run (registrations entries)).events
      (r.run (registrations entries)).registry.account := by
  induction entries generalizing r with
  | nil => exact .nil
  | cons entry rest ih =>
    obtain ⟨name, source⟩ := entry
    obtain ⟨q, -, -, hrun, herror⟩ := exists_of_run_registrations h
    rw [hrun]
    exact (r.leads_registered name q).append (ih herror)

theorem leads_allowOverwriting (r : Registry) :
    r.account.Leads r.allowOverwriting.2 r.allowOverwriting.1.account := by
  rw [allowOverwriting]
  cases hoverwrite : r.settings.allowOverwrite with
  | false => exact .cons hoverwrite .nil
  | true =>
    have hsame : r.account.enter .overwritingEnabled = r.account := by
      simp only [Account.enter, account, hoverwrite]
    exact hsame ▸ .nil

theorem Effect.leads {op : Operation} {run : Run} (h : r.Effect op run) :
    r.account.Leads run.events run.registry.account := by
  cases h with
  | fails => exact .nil
  | defines => exact r.leads_registered _ _
  | batch ends => exact leads_run_registrations ends
  | clears => exact .cons r.card_account.symm .nil
  | allows => exact r.leads_allowOverwriting

theorem leads_log (r : Registry) (operations : List Operation) :
    r.account.Leads (r.log operations) (r.after operations).account := by
  induction operations generalizing r with
  | nil => exact .nil
  | cons op rest ih => exact (r.effect_apply op).leads.append (ih _)

/-- The log is faithful, whatever was done and whatever of it failed: replayed from no names it
gives the names, their number and whether overwriting is allowed; each of its events agrees with the
replay of the events before it; overwriting is enabled at most once, and only if it was not allowed
from the start. The log only grows, and an operation that fails adds nothing to it. -/
theorem log_faithful (settings : Settings) (operations : List Operation) :
    let start := withSettings settings
    let r := start.after operations
    let log := start.log operations
    let told := Account.replay ⟨∅, settings.allowOverwrite⟩
    r.names = (told log).names.sort ∧ r.size = (told log).names.card ∧
      r.settings.allowOverwrite = (told log).overwriting ∧
      (∀ before e after, log = before ++ e :: after → (told before).Agrees e) ∧
      (∀ before after, log = before ++ .overwritingEnabled :: after →
        settings.allowOverwrite = false ∧ .overwritingEnabled ∉ before ++ after) ∧
      (∀ later, start.log (operations ++ later) = log ++ r.log later) ∧
      ∀ op e, (r.apply op).error = some e → r.log [op] = [] ∧ r.after [op] = r := by
  intro start r log told
  have hlog : Account.Leads ⟨∅, settings.allowOverwrite⟩ log r.account := start.leads_log operations
  have htold : told log = r.account := hlog.replay_eq
  refine ⟨?_, ?_, ?_, ?_, ?_, start.log_append operations, ?_⟩
  · rw [htold, sort_account]
  · rw [htold, card_account]
  · rw [htold, account]
  · intro before e after hsplit
    exact Account.Leads.agrees (hsplit ▸ hlog)
  · intro before after hsplit
    rw [hsplit] at hlog
    exact ⟨hlog.not_enabled_before.1, fun hmem =>
      (List.mem_append.1 hmem).elim hlog.not_enabled_before.2 hlog.not_enabled_after⟩
  · intro op e herror
    have hfails := apply_of_error herror
    constructor
    · rw [Registry.log, hfails]
      rfl
    · exact congrArg Run.registry hfails

/-- A batch that names a type twice fails at first and is not in the log. With overwriting it
replaces the type that it defined itself. -/
theorem log_faithful_repeated :
    let batch : List (String × Source) :=
      [("id", .built (.shape [])), ("key", .built (.shape [])), ("id", .built (.shape []))]
    let r := (withSettings {}).after [.registerAll batch, .allowOverwriting, .registerAll batch]
    let replacing : List Event := [.overwritingEnabled, .registered "id" false,
      .registered "key" false, .registered "id" true]
    let told := Account.replay ⟨∅, false⟩
    r.names = (told replacing).names.sort ∧ r.size = (told replacing).names.card ∧
      (told (replacing.take 3)).Agrees (.registered "id" true) ∧
      .overwritingEnabled ∉ replacing.tail ∧
      (withSettings {}).log [.registerAll batch] = [] := by
  intro batch r replacing told
  obtain ⟨hnames, hsize, -, hagrees, honce, -, -⟩ :=
    log_faithful {} [.registerAll batch, .allowOverwriting, .registerAll batch]
  have hrefused : ((withSettings {}).apply (.registerAll batch)).error =
      some (.duplicateName "id") := rfl
  obtain ⟨-, -, -, -, -, -, hfails⟩ := log_faithful {} []
  refine ⟨hnames, hsize, hagrees (replacing.take 3) _ [] rfl, (honce [] _ rfl).2, ?_⟩
  exact (hfails _ _ hrefused).1

end Registry

end Conformance
