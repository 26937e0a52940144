import Conformance.Json.Basic
import Conformance.Json.Reader
import Conformance.Proofs.Double.Decimal
import Mathlib.Data.List.Basic
import Mathlib.Data.List.TakeDrop

/-!
# Numerals in JSON text

What is written for a number is read as that number, whatever stands behind it that does not
continue it (`Stops`): an integer of 64 bits as itself (`readNumber_writeInt`), and a finite
double as itself (`readNumber_write`). Each of the ways in which a double is written out is a
numeral with its digits split at some place (`ReadsAs`), and its value does not depend on the place.
-/

namespace Conformance.Json

attribute [local instance (high)] instPowNat

variable {digits rest : List Char}

/-! ## Digits -/

def continuesNumber (c : Char) : Bool := c.isDigit || c == '.' || c == 'e' || c == 'E'

/-- Such characters, where they come before this text, end there. -/
def Stops (p : Char → Bool) (rest : List Char) : Prop := ∀ c ∈ rest.head?, p c = false

theorem stops_nil {p : Char → Bool} : Stops p [] := by
  rintro c ⟨⟩

theorem stops_cons {p : Char → Bool} {c : Char} (hc : p c = false) (cs : List Char) :
    Stops p (c :: cs) := by
  rintro d ⟨⟩
  exact hc

theorem Stops.isDigit (h : Stops continuesNumber rest) : Stops Char.isDigit rest := by
  intro c hc
  have hcontinues := h c hc
  simp only [continuesNumber, Bool.or_eq_false_iff] at hcontinues
  exact hcontinues.1.1.1

theorem isDigit_toDigits (n : Nat) : ∀ c ∈ Nat.toDigits 10 n, c.isDigit :=
  fun _ hc => Nat.isDigit_of_mem_toDigits (by decide) (by decide) hc

theorem isDigit_zeros (n : Nat) : ∀ c ∈ zeros n, c.isDigit := by
  intro c hc
  rw [List.eq_of_mem_replicate hc]
  rfl

theorem digitsValue_append_zeros (ds : List Char) (k : Nat) :
    digitsValue (ds ++ zeros k) = digitsValue ds * 10 ^ k := by
  unfold digitsValue zeros
  rw [Nat.ofDigitChars_append, Nat.ofDigitChars_replicate_zero, Nat.mul_comm]

theorem digitsValue_zeros_append (ds : List Char) (k : Nat) :
    digitsValue (zeros k ++ ds) = digitsValue ds := by
  unfold digitsValue zeros
  rw [Nat.ofDigitChars_append, Nat.ofDigitChars_replicate_zero, Nat.mul_zero]

theorem readDigits_append (hne : digits ≠ []) (hdigits : ∀ c ∈ digits, c.isDigit)
    (hrest : Stops Char.isDigit rest) :
    readDigits (digits ++ rest) = .ok (digits, rest) := by
  have htake : rest.takeWhile Char.isDigit = [] := by
    cases rest with
    | nil => rfl
    | cons c rest => rw [List.takeWhile_cons, hrest c rfl]; rfl
  have hdrop : rest.dropWhile Char.isDigit = rest := by
    cases rest with
    | nil => rfl
    | cons c rest => rw [List.dropWhile_cons, hrest c rfl]; rfl
  unfold readDigits
  rw [List.span_eq_takeWhile_dropWhile, List.takeWhile_append_of_pos hdigits,
    List.dropWhile_append_of_pos hdigits, htake, hdrop, List.append_nil]
  cases digits with
  | nil => exact absurd rfl hne
  | cons d ds => rfl

/-! ## The digits before the point -/

theorem head?_toDigits_ne_zero {n : Nat} (hn : 0 < n) : (Nat.toDigits 10 n).head? ≠ some '0' := by
  induction n using Nat.strongRecOn with
  | ind n ih =>
    have hdigit : ∀ d < 10, 0 < d → d.digitChar ≠ '0' := by decide
    by_cases hlt : n < 10
    · rw [Nat.toDigits_of_lt_base hlt, List.head?_cons]
      exact fun hzero => hdigit n hlt hn (Option.some.inj hzero)
    · have hne : Nat.toDigits 10 (n / 10) ≠ [] := Nat.toDigits_ne_nil
      rw [Nat.toDigits_eq_if (by decide), if_neg hlt, List.head?_append_of_ne_nil _ hne]
      exact ih (n / 10) (by omega) (by omega)

/-- What may stand before the point: digits, of which the first is a zero only if it is alone. -/
structure IsWhole (digits : List Char) : Prop where
  ne_nil : digits ≠ []
  isDigit : ∀ c ∈ digits, c.isDigit
  leads : digits.head? = some '0' → digits = ['0']

theorem isWhole_zero : IsWhole ['0'] :=
  ⟨List.cons_ne_nil _ _, List.forall_mem_singleton.2 rfl, fun _ => rfl⟩

theorem isWhole_toDigits (n : Nat) : IsWhole (Nat.toDigits 10 n) := by
  refine ⟨Nat.toDigits_ne_nil, isDigit_toDigits n, fun hhead => ?_⟩
  rcases Nat.eq_zero_or_pos n with rfl | hn
  · rfl
  · exact absurd hhead (head?_toDigits_ne_zero hn)

theorem IsWhole.toDigits_append {n : Nat} (hn : 0 < n) (hdigits : ∀ c ∈ digits, c.isDigit) :
    IsWhole (Nat.toDigits 10 n ++ digits) := by
  have hne : Nat.toDigits 10 n ≠ [] := Nat.toDigits_ne_nil
  refine ⟨List.append_ne_nil_of_left_ne_nil hne digits, ?_, fun hhead => ?_⟩
  · intro c hc
    exact (List.mem_append.1 hc).elim (isDigit_toDigits n c) (hdigits c)
  · rw [List.head?_append_of_ne_nil _ hne] at hhead
    exact absurd hhead (head?_toDigits_ne_zero hn)

theorem IsWhole.take_toDigits {n k : Nat} (hn : 0 < n) (hk : 0 < k) :
    IsWhole ((Nat.toDigits 10 n).take k) := by
  have hne : Nat.toDigits 10 n ≠ [] := Nat.toDigits_ne_nil
  refine ⟨?_, fun c hc => isDigit_toDigits n c (List.mem_of_mem_take hc), fun hhead => ?_⟩
  · intro hnil
    rcases List.take_eq_nil_iff.1 hnil with hzero | hnil
    · omega
    · exact hne hnil
  · rw [List.head?_take, if_neg (by omega)] at hhead
    exact absurd hhead (head?_toDigits_ne_zero hn)

theorem readWhole_of_ne_zero {c : Char} (hc : c ≠ '0') :
    readWhole (c :: rest) = readDigits (c :: rest) := by
  unfold readWhole
  split
  · next heq =>
    injection heq with hzero
    exact absurd hzero hc
  · rfl

theorem IsWhole.readWhole_append (h : IsWhole digits) (hrest : Stops Char.isDigit rest) :
    readWhole (digits ++ rest) = .ok (digits, rest) := by
  by_cases hzero : digits.head? = some '0'
  · rw [h.leads hzero]
    cases rest with
    | nil => rfl
    | cons c rest =>
      have hc : c.isDigit = false := hrest c rfl
      show (if c.isDigit then _ else _) = _
      rw [hc]
      rfl
  · have hread := readDigits_append h.ne_nil h.isDigit hrest
    cases digits with
    | nil => exact absurd rfl h.ne_nil
    | cons d ds =>
      have hd : d ≠ '0' := fun hd => hzero (congrArg some hd)
      rw [List.cons_append, readWhole_of_ne_zero hd]
      exact hread

/-! ## Fraction and exponent -/

theorem Stops.readFraction (h : Stops continuesNumber rest) :
    readFraction rest = .ok (none, rest) := by
  unfold Json.readFraction
  split
  · have hpoint := h '.' rfl
    cases hpoint
  · rfl

theorem Stops.readExponent (h : Stops continuesNumber rest) :
    readExponent rest = .ok (none, rest) := by
  cases rest with
  | nil => rfl
  | cons c rest =>
    have hc : ¬ (c = 'e' ∨ c = 'E') := by
      have hcontinues := h c rfl
      rintro (rfl | rfl) <;> cases hcontinues
    show (if c = 'e' ∨ c = 'E' then _ else _) = _
    rw [if_neg hc]

theorem readExponent_append (e : Int) (hrest : Stops Char.isDigit rest) :
    readExponent ('e' :: (if 0 ≤ e then '+' else '-') :: (Nat.toDigits 10 e.natAbs ++ rest)) =
      .ok (some e, rest) := by
  have hread := readDigits_append Nat.toDigits_ne_nil (isDigit_toDigits e.natAbs) hrest
  split
  · have he : (e.natAbs : Int) = e := by omega
    simp only [readExponent, true_or, if_true, hread, bind, Except.bind, digitsValue_toDigits,
      Bool.false_eq_true, if_false, he]
  · have he : -(e.natAbs : Int) = e := by omega
    simp only [readExponent, true_or, if_true, hread, bind, Except.bind, digitsValue_toDigits, he]

/-! ## Numbers -/

def signed (negative : Bool) (cs : List Char) : List Char := if negative then '-' :: cs else cs

def ofParts (negative : Bool) (whole : List Char) (fraction : Option (List Char))
    (exponent : Option Int) : Json :=
  if fraction.isNone ∧ exponent.isNone then ofLiteral negative (digitsValue whole)
  else .double (.ofDecimal negative ⟨digitsValue (whole ++ fraction.getD []),
    exponent.getD 0 - (fraction.getD []).length⟩)

/-- A number is read part by part. -/
theorem readNumber_signed {negative : Bool} {cs behindWhole behindFraction whole : List Char}
    {fraction : Option (List Char)} {exponent : Option Int} {j : Json}
    (hwhole : readWhole cs = .ok (whole, behindWhole))
    (hfraction : readFraction behindWhole = .ok (fraction, behindFraction))
    (hexponent : readExponent behindFraction = .ok (exponent, rest))
    (hfinite : finiteOnly (ofParts negative whole fraction exponent) = .ok j) :
    readNumber (signed negative cs) = .ok (j, rest) := by
  unfold readNumber
  split
  next sign behindSign hsplit =>
  have hsign : (sign, behindSign) = (negative, cs) := by
    rw [← hsplit]
    cases negative with
    | true => rfl
    | false =>
      -- Digits do not begin with a minus sign.
      unfold signed
      split
      · next heq =>
        rw [if_neg (by decide)] at heq
        subst heq
        cases hwhole
      · rfl
  cases hsign
  simp only [bind, Except.bind, hwhole, hfraction, hexponent]
  cases fraction <;> cases exponent <;> simp_all [ofParts]

/-! ## Integers -/

/-- The integer fits 64 bits, signed or unsigned. -/
def FitsWord (n : Int) : Prop := -(2 ^ (63 : Nat) : Nat) ≤ n ∧ n < (2 ^ (64 : Nat) : Nat)

theorem readNumber_writeInt {n : Int} (hn : FitsWord n) (hrest : Stops continuesNumber rest) :
    readNumber (writeInt n ++ rest) = .ok (.int n, rest) := by
  obtain ⟨hlow, hhigh⟩ := hn
  have hliteral :
      finiteOnly (ofParts (n < 0) (Nat.toDigits 10 n.natAbs) none none) = .ok (.int n) := by
    show finiteOnly (ofLiteral (n < 0) (digitsValue (Nat.toDigits 10 n.natAbs))) = _
    rw [digitsValue_toDigits]
    unfold ofLiteral
    by_cases hn : n < 0
    · have hint : -(n.natAbs : Int) = n := by omega
      rw [if_pos (by simpa using hn), if_pos (by omega), hint]
      rfl
    · have hint : (n.natAbs : Int) = n := by omega
      rw [if_neg (by simpa using hn), if_pos (by omega), hint]
      rfl
  have hwhole := (isWhole_toDigits n.natAbs).readWhole_append hrest.isDigit
  have hread := readNumber_signed hwhole hrest.readFraction hrest.readExponent hliteral
  have htext : writeInt n ++ rest = signed (n < 0) (Nat.toDigits 10 n.natAbs ++ rest) := by
    unfold writeInt signed
    by_cases hn : n < 0
    · simp [hn]
    · simp [hn]
  rw [htext, hread]

/-! ## Doubles -/

/-- The text is read as a double, that of the numeral `d`, with either sign. -/
def ReadsAs (cs : List Char) (d : Decimal) : Prop :=
  ∀ (negative : Bool) (x : Magnitude) (rest : List Char), Stops continuesNumber rest →
    Double.ofDecimal negative d = .finite negative x →
    readNumber (signed negative (cs ++ rest)) = .ok (.double (.finite negative x), rest)

section Spellings

variable {whole behind : List Char} {d : Decimal}

theorem ReadsAs.of_shift {cs : List Char} {n k : Nat} {e : Int}
    (h : ReadsAs cs ⟨n * 10 ^ k, e - k⟩) : ReadsAs cs ⟨n, e⟩ := by
  intro negative x rest hrest hx
  rw [← Double.ofDecimal_shift_pow negative n k e] at hx
  exact h negative x rest hrest hx

theorem readFraction_point (hne : behind ≠ []) (hbehind : ∀ c ∈ behind, c.isDigit)
    (hrest : Stops Char.isDigit rest) :
    readFraction ('.' :: (behind ++ rest)) = .ok (some behind, rest) := by
  unfold readFraction
  simp only [bind, Except.bind, readDigits_append hne hbehind hrest]

theorem readsAs_point (hwhole : IsWhole whole) (hne : behind ≠ [])
    (hbehind : ∀ c ∈ behind, c.isDigit) :
    ReadsAs (whole ++ '.' :: behind) ⟨digitsValue (whole ++ behind), -behind.length⟩ := by
  intro negative x rest hrest hx
  have hfraction := readFraction_point hne hbehind hrest.isDigit
  have hpoint : Stops Char.isDigit ('.' :: (behind ++ rest)) := stops_cons rfl _
  have hnumber : finiteOnly (ofParts negative whole (some behind) none) =
      .ok (.double (.finite negative x)) := by
    simp [ofParts, hx, finiteOnly]
  rw [List.append_assoc, List.cons_append]
  exact readNumber_signed (hwhole.readWhole_append hpoint) hfraction hrest.readExponent hnumber

theorem readsAs_scientific (hwhole : IsWhole whole) (hbehind : ∀ c ∈ behind, c.isDigit) (e : Int) :
    ReadsAs (whole ++ (if behind.isEmpty then [] else '.' :: behind) ++
      'e' :: (if 0 ≤ e then '+' else '-') :: Nat.toDigits 10 e.natAbs)
      ⟨digitsValue (whole ++ behind), e - behind.length⟩ := by
  intro negative x rest hrest hx
  have hexponent := readExponent_append e hrest.isDigit
  rw [List.append_assoc, List.append_assoc, List.cons_append, List.cons_append]
  generalize hsign : (if 0 ≤ e then '+' else '-') = sign at hexponent ⊢
  generalize Nat.toDigits 10 e.natAbs ++ rest = behindSign at hexponent ⊢
  have hletter : Stops Char.isDigit ('e' :: sign :: behindSign) := stops_cons rfl _
  cases behind with
  | nil =>
    have hnumber : finiteOnly (ofParts negative whole none (some e)) =
        .ok (.double (.finite negative x)) := by
      simp_all [ofParts, finiteOnly]
    exact readNumber_signed (hwhole.readWhole_append hletter) rfl hexponent hnumber
  | cons b bs =>
    have hnumber : finiteOnly (ofParts negative whole (some (b :: bs)) (some e)) =
        .ok (.double (.finite negative x)) := by
      simp_all [ofParts, finiteOnly]
    have hfraction := readFraction_point (List.cons_ne_nil b bs) hbehind hletter
    have hpoint : Stops Char.isDigit ('.' :: (b :: bs ++ 'e' :: sign :: behindSign)) :=
      stops_cons rfl _
    exact readNumber_signed (hwhole.readWhole_append hpoint) hfraction hexponent hnumber

end Spellings

section Layouts

variable {n k : Nat}

theorem readsAs_zeros_behind (hn : 0 < n) :
    ReadsAs (Nat.toDigits 10 n ++ zeros k ++ ['.', '0']) ⟨n, k⟩ := by
  have hread := readsAs_point (.toDigits_append hn (isDigit_zeros k)) (List.cons_ne_nil '0' [])
    (isDigit_zeros 1)
  have hdigits : Nat.toDigits 10 n ++ zeros k ++ ['0'] = Nat.toDigits 10 n ++ zeros (k + 1) := by
    rw [List.append_assoc, zeros, zeros, List.replicate_succ']
  have hvalue : digitsValue (Nat.toDigits 10 n ++ zeros k ++ ['0']) = n * 10 ^ (k + 1) := by
    rw [hdigits, digitsValue_append_zeros, digitsValue_toDigits]
  have hexponent : -((['0'].length : Nat) : Int) = k - (k + 1 : Nat) := by
    simp only [List.length_singleton]
    omega
  rw [hvalue, hexponent] at hread
  exact hread.of_shift

theorem readsAs_point_inside (hn : 0 < n) (hk : 0 < k) (hlt : k < (Nat.toDigits 10 n).length) :
    ReadsAs ((Nat.toDigits 10 n).take k ++ '.' :: (Nat.toDigits 10 n).drop k)
      ⟨n, k - (Nat.toDigits 10 n).length⟩ := by
  have hne : (Nat.toDigits 10 n).drop k ≠ [] := by
    rw [Ne, List.drop_eq_nil_iff]
    omega
  have hread := readsAs_point (.take_toDigits hn hk) hne
    fun c hc => isDigit_toDigits n c (List.mem_of_mem_drop hc)
  have hexponent : -(((Nat.toDigits 10 n).drop k).length : Int) =
      k - (Nat.toDigits 10 n).length := by
    rw [List.length_drop]
    omega
  rwa [List.take_append_drop, digitsValue_toDigits, hexponent] at hread

theorem readsAs_zeros_before :
    ReadsAs ('0' :: '.' :: (zeros k ++ Nat.toDigits 10 n))
      ⟨n, -k - (Nat.toDigits 10 n).length⟩ := by
  have hne : zeros k ++ Nat.toDigits 10 n ≠ [] :=
    List.append_ne_nil_of_right_ne_nil _ Nat.toDigits_ne_nil
  have hread := readsAs_point isWhole_zero hne fun c hc =>
    (List.mem_append.1 hc).elim (isDigit_zeros k c) (isDigit_toDigits n c)
  have hvalue : digitsValue (['0'] ++ (zeros k ++ Nat.toDigits 10 n)) = n := by
    rw [← List.append_assoc]
    exact (digitsValue_zeros_append _ (k + 1)).trans (digitsValue_toDigits n)
  have hexponent : -((zeros k ++ Nat.toDigits 10 n).length : Int) =
      -k - (Nat.toDigits 10 n).length := by
    rw [List.length_append, zeros, List.length_replicate]
    omega
  rwa [hvalue, hexponent] at hread

end Layouts

section Numerals

variable {d : Decimal} (hd : 0 < d.digits)

include hd

theorem readsAs_writeOut : ReadsAs d.writeOut d := by
  obtain ⟨n, e⟩ := d
  have hleading : Decimal.leading ⟨n, e⟩ = (Nat.toDigits 10 n).length - 1 + e := rfl
  unfold Decimal.writeOut
  dsimp only at hd ⊢
  split
  · next hexponent =>
    obtain ⟨k, rfl⟩ := Int.eq_ofNat_of_zero_le hexponent
    exact readsAs_zeros_behind hd
  · next hexponent =>
    split
    · next hinside =>
      have hread := readsAs_point_inside hd (k := (Decimal.leading ⟨n, e⟩ + 1).toNat) (by omega)
        (by omega)
      have he : ((Decimal.leading ⟨n, e⟩ + 1).toNat : Int) - (Nat.toDigits 10 n).length = e := by
        omega
      rwa [he] at hread
    · next hbefore =>
      have hread := readsAs_zeros_before (n := n) (k := (-(Decimal.leading ⟨n, e⟩ + 1)).toNat)
      have he :
          -((-(Decimal.leading ⟨n, e⟩ + 1)).toNat : Int) - (Nat.toDigits 10 n).length = e := by
        omega
      rwa [he] at hread

theorem readsAs_writeScientific : ReadsAs d.writeScientific d := by
  obtain ⟨n, e⟩ := d
  have hleading : Decimal.leading ⟨n, e⟩ = (Nat.toDigits 10 n).length - 1 + e := rfl
  have hpos : 0 < (Nat.toDigits 10 n).length := List.length_pos_iff.2 Nat.toDigits_ne_nil
  have hfraction : ∀ c ∈ (Nat.toDigits 10 n).drop 1, c.isDigit :=
    fun c hc => isDigit_toDigits n c (List.mem_of_mem_drop hc)
  have hread := readsAs_scientific (.take_toDigits hd Nat.one_pos) hfraction
    (Decimal.leading ⟨n, e⟩)
  have hexponent : Decimal.leading ⟨n, e⟩ - ((Nat.toDigits 10 n).drop 1).length = e := by
    rw [List.length_drop]
    omega
  rwa [List.take_append_drop, digitsValue_toDigits, hexponent] at hread

theorem readsAs_write (l : NumeralLayout) : ReadsAs (l.write d) d := by
  unfold NumeralLayout.write
  split
  · exact readsAs_writeOut hd
  · exact readsAs_writeScientific hd

end Numerals

/-- What is written for a finite double is read as that double. -/
theorem readNumber_write {x : Double} (hx : x.isFinite) (hrest : Stops continuesNumber rest) :
    readNumber (x.write ++ rest) = .ok (.double x, rest) := by
  cases x with
  | nan => cases hx
  | infinite negative => cases hx
  | finite negative m =>
    have htext : ∀ cs,
        (if negative then ['-'] else []) ++ cs ++ rest = signed negative (cs ++ rest) := by
      intro cs
      cases negative <;> rfl
    unfold Double.write
    dsimp only
    rw [htext]
    split
    · next hzero =>
      have hread : ReadsAs ['0', '.', '0'] ⟨0, -1⟩ :=
        readsAs_point isWhole_zero (List.cons_ne_nil '0' []) (isDigit_zeros 1)
      refine hread negative m rest hrest ?_
      rw [Magnitude.units_eq_zero_iff.1 hzero]
      rfl
    · next hzero =>
      have hshortest := m.reads_shortest hzero
      exact readsAs_write (hshortest.digits_pos hzero) _ negative m rest hrest (hshortest negative)

end Conformance.Json
