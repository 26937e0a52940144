import Conformance.Matching.Basic

/-!
# Checks

A check is a value bound to a registry. It can be asked whether the value conforms to a
requirement, or told that it does (`assertIs`) or does not (`assertIsNot`). A requirement that
cannot be used is an error of the first two, and counts as not conforming for the third.
-/

namespace Conformance

structure Check where
  value : Value
  registry : Registry

/-- Why an assertion did not hold: the value is not as asserted, or the requirement cannot be
used. -/
inductive CheckError where
  | validation (message : String) (failure : Option Failure)
  | configuration (error : ConfigurationError)

def CheckError.message : CheckError → String
  | validation message _ => message
  | configuration error => "configuration error: " ++ error.message

def Registry.check (r : Registry) (v : Value) : Check := ⟨v, r⟩

namespace Check

def outcome (c : Check) (source : Source) : Except ConfigurationError (Requirement × Outcome) := do
  let q ← source.toRequirement
  let o ← c.registry.assess q c.value
  .ok (q, o)

def conforms (c : Check) (source : Source) : Except ConfigurationError Bool := do
  let q ← source.toRequirement
  let o ← c.registry.assess q c.value
  .ok o.isConforming

/-- Assert that the value conforms. `message` replaces the message of a failure. -/
def assertIs (c : Check) (source : Source) (message : Option String) :
    Except CheckError Unit × List Event :=
  match source.toRequirement with
  | .ok q =>
    match c.registry.assess q c.value with
    | .ok .conforms => (.ok (), [])
    | .ok (.fails f) =>
      let text := message.getD (c.value.pretty ++ " is NOT " ++ q.display)
      (.error (.validation text (some f)), [.checkFailed f])
    | .error e => (.error (.configuration e), [])
  | .error e => (.error (.configuration e), [])

def assertIsNot (c : Check) (source : Source) (message : Option String) :
    Except CheckError Unit × List Event :=
  match c.outcome source with
  | .ok (q, .conforms) =>
    let text := message.getD (c.value.pretty ++ " IS " ++ q.display)
    (.error (.validation text none), [])
  | .ok (_, .fails _) => (.ok (), [])
  | .error e => (.ok (), [.unusableRequirement e])

end Check

end Conformance
