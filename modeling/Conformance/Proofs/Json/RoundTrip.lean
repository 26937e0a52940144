import Conformance.Proofs.Entries
import Conformance.Proofs.Json.Numerals
import Conformance.Proofs.Value.Parts
import Mathlib.Data.List.DropRight

/-!
# Reading what was written

JSON that is written out is read as it was, in every layout that puts nothing but blanks between
the tokens (`Layout.Spaced`), provided the text can express it (`Readable`): its integers fit 64
bits, its doubles are finite, and its objects are in order. The reader has fuel for two steps a
character, and each character of what is read pays for them.
-/

namespace Conformance.Json

attribute [local instance (high)] instPowNat

variable {rest : List Char}

/-! ## Strings -/

theorem hexDigit?_digitChar {d : Nat} (hd : d < 16) : hexDigit? d.digitChar = some d := by
  have hall : ∀ d < 16, hexDigit? d.digitChar = some d := by decide
  exact hall d hd

theorem readUnit_control {c : Char} (hc : c.toNat < 0x20) (rest : List Char) :
    readUnit ('0' :: '0' :: (c.toNat / 16).digitChar :: (c.toNat % 16).digitChar :: rest) =
      .ok (c, rest) := by
  have hhigh := hexDigit?_digitChar (d := c.toNat / 16) (by omega)
  have hlow := hexDigit?_digitChar (d := c.toNat % 16) (by omega)
  have hzero : hexDigit? '0' = some 0 := rfl
  have hnumber : c.toNat / 16 * 16 + c.toNat % 16 = c.toNat := by omega
  have hhex : readHex ('0' :: '0' :: (c.toNat / 16).digitChar :: (c.toNat % 16).digitChar :: rest) =
      .ok (c.toNat, rest) := by
    simp [readHex, hhigh, hlow, hzero, hnumber]
  unfold readUnit
  rw [hhex]
  simp only [bind, Except.bind]
  rw [if_neg (by omega), if_neg (by omega), Char.ofNat_toNat]

/-- A character is escaped, and read back from behind the backslash, or it stands for itself. -/
theorem escape_cases (c : Char) :
    (∃ body, escape c = '\\' :: body ∧ ∀ rest, readEscape (body ++ rest) = .ok (c, rest)) ∨
      (escape c = [c] ∧ c ≠ '"' ∧ c ≠ '\\' ∧ ¬ c.toNat < 0x20) := by
  have hletter : ∀ d ∈ ['"', '\\', '\x08', '\t', '\n', '\x0c', '\r'],
      ∃ body, escape d = '\\' :: body ∧ ∀ rest, readEscape (body ++ rest) = .ok (d, rest) := by
    intro d hd
    simp only [List.mem_cons, List.not_mem_nil, or_false] at hd
    rcases hd with rfl | rfl | rfl | rfl | rfl | rfl | rfl <;> exact ⟨_, rfl, fun _ => rfl⟩
  by_cases hc : c ∈ ['"', '\\', '\x08', '\t', '\n', '\x0c', '\r']
  · exact .inl (hletter c hc)
  · simp only [List.mem_cons, List.not_mem_nil, or_false, not_or] at hc
    obtain ⟨hquote, hslash, hb, ht, hn, hf, hr⟩ := hc
    unfold escape
    rw [if_neg hquote, if_neg hslash, if_neg hb, if_neg ht, if_neg hn, if_neg hf, if_neg hr]
    by_cases hcontrol : c.toNat < 0x20
    · rw [if_pos hcontrol]
      exact .inl ⟨_, rfl, readUnit_control hcontrol⟩
    · rw [if_neg hcontrol]
      exact .inr ⟨rfl, hquote, hslash, hcontrol⟩

theorem length_escape_pos (c : Char) : 0 < (escape c).length := by
  rcases escape_cases c with ⟨body, hescape, -⟩ | ⟨hescape, -⟩
  · rw [hescape]
    exact Nat.zero_lt_succ _
  · rw [hescape]
    exact Nat.zero_lt_succ _

theorem readStringFrom_escape (c : Char) (fuel : Nat) (done : List Char) :
    readStringFrom (fuel + 1) done (escape c ++ rest) = readStringFrom fuel (c :: done) rest := by
  rcases escape_cases c with ⟨body, hescape, hread⟩ | ⟨hescape, hquote, hslash, hcontrol⟩
  · rw [hescape, List.cons_append]
    simp only [readStringFrom, hread, bind, Except.bind]
  · rw [hescape, List.singleton_append, readStringFrom, if_neg hcontrol]
    · exact hquote
    · exact hslash

theorem readStringFrom_flatMap_escape (cs : List Char) {fuel : Nat} (hfuel : cs.length < fuel)
    (done : List Char) :
    readStringFrom fuel done (cs.flatMap escape ++ '"' :: rest) =
      .ok (.ofList (done.reverse ++ cs), rest) := by
  induction cs generalizing fuel done with
  | nil =>
    obtain ⟨fuel, rfl⟩ := Nat.exists_eq_add_of_lt hfuel
    rw [List.append_nil]
    rfl
  | cons c cs ih =>
    obtain ⟨fuel, rfl⟩ := Nat.exists_eq_succ_of_ne_zero (Nat.ne_of_gt (Nat.zero_lt_of_lt hfuel))
    rw [List.flatMap_cons, List.append_assoc, readStringFrom_escape,
      ih (Nat.lt_of_succ_lt_succ hfuel), List.reverse_cons, List.append_assoc]
    rfl

theorem readString_write (s : String) (rest : List Char) :
    readString (s.toList.flatMap escape ++ '"' :: rest) = .ok (s, rest) := by
  have hlength : ∀ cs : List Char, cs.length ≤ (cs.flatMap escape).length := by
    intro cs
    induction cs with
    | nil => exact Nat.le_refl 0
    | cons c cs ih =>
      have hc := length_escape_pos c
      rw [List.flatMap_cons, List.length_append, List.length_cons]
      omega
  have hfuel : s.toList.length < (s.toList.flatMap escape ++ '"' :: rest).length + 1 := by
    have hs := hlength s.toList
    rw [List.length_append]
    omega
  unfold readString
  rw [readStringFrom_flatMap_escape s.toList hfuel, List.reverse_nil, List.nil_append,
    String.ofList_toList]

/-! ## Blanks -/

theorem skipBlanks_append {blanks : List Char} (h : ∀ c ∈ blanks, isBlank c) (cs : List Char) :
    skipBlanks (blanks ++ cs) = skipBlanks cs :=
  List.dropWhile_append_of_pos h

theorem skipBlanks_cons {c : Char} (h : isBlank c = false) (cs : List Char) :
    skipBlanks (c :: cs) = c :: cs :=
  List.dropWhile_cons_of_neg (by rw [h]; exact Bool.false_ne_true)

theorem skipBlanks_skipBlanks (cs : List Char) : skipBlanks (skipBlanks cs) = skipBlanks cs :=
  List.dropWhile_idempotent _ _

/-! Blanks in front of a value, of the items of an array or of a key make no difference. -/

theorem readValue_skipBlanks (fuel : Nat) (cs : List Char) :
    readValue fuel (skipBlanks cs) = readValue fuel cs := by
  cases fuel with
  | zero => rfl
  | succ fuel => simp only [readValue, skipBlanks_skipBlanks]

theorem readItems_skipBlanks (fuel : Nat) (cs : List Char) :
    readItems fuel (skipBlanks cs) = readItems fuel cs := by
  cases fuel with
  | zero => rfl
  | succ fuel => simp only [readItems, readValue_skipBlanks]

theorem readEntries_skipBlanks (fuel : Nat) (cs : List Char) :
    readEntries fuel (skipBlanks cs) = readEntries fuel cs := by
  cases fuel with
  | zero => rfl
  | succ fuel => simp only [readEntries, readKey, skipBlanks_skipBlanks]

/-- Nothing but blanks and a colon stands between the tokens. -/
structure Layout.Spaced (l : Layout) : Prop where
  gap : ∀ depth, ∀ c ∈ l.gap depth, isBlank c
  colon : ∃ blanks, l.colon = ':' :: blanks ∧ ∀ c ∈ blanks, isBlank c

theorem Layout.spaced_indented : Layout.indented.Spaced := by
  refine ⟨fun depth c hc => ?_, [' '], rfl, List.forall_mem_singleton.2 rfl⟩
  rcases List.mem_cons.1 hc with rfl | hc
  · rfl
  · rw [List.eq_of_mem_replicate hc]
    rfl

theorem continuesNumber_of_isBlank {c : Char} (hc : isBlank c) : continuesNumber c = false := by
  simp only [isBlank, Bool.or_eq_true, beq_iff_eq] at hc
  rcases hc with ((rfl | rfl) | rfl) | rfl <;> rfl

theorem Stops.blanks_append {blanks : List Char} (h : ∀ c ∈ blanks, isBlank c)
    (hrest : Stops continuesNumber rest) : Stops continuesNumber (blanks ++ rest) := by
  cases blanks with
  | nil => exact hrest
  | cons c cs => exact stops_cons (continuesNumber_of_isBlank (h c List.mem_cons_self)) _

/-! ## Values -/

theorem readValue_of_readNumber {cs : List Char} {j : Json} (h : readNumber cs = .ok (j, rest))
    (fuel : Nat) : readValue (fuel + 1) cs = .ok (j, rest) := by
  cases cs with
  | nil => cases h
  | cons c cs =>
    have hblank : isBlank c = false := by
      by_contra hc
      simp only [isBlank, Bool.not_eq_false, Bool.or_eq_true, beq_iff_eq] at hc
      rcases hc with ((rfl | rfl) | rfl) | rfl <;> cases h
    rw [readValue, skipBlanks_cons hblank]
    -- No other sort of value begins like a number.
    split
    case h_7 => exact h
    all_goals
      next heq =>
        cases heq
        cases h

/-! ## Lengths -/

theorem writeInt_ne_nil (n : Int) : writeInt n ≠ [] := by
  unfold writeInt
  dsimp only
  split
  · exact List.cons_ne_nil _ _
  · exact Nat.toDigits_ne_nil

theorem write_double_ne_nil (x : Double) : x.write ≠ [] := by
  cases x with
  | finite negative m =>
    intro hnil
    have hread := readNumber_write (x := .finite negative m) rfl stops_nil
    rw [hnil] at hread
    cases hread
  | _ => exact List.cons_ne_nil _ _

theorem length_writeString (s : String) (rest : List Char) :
    rest.length < (writeString s rest).length := by
  unfold writeString
  simp only [List.length_cons, List.length_append]
  omega

theorem length_lt_append {cs : List Char} (h : cs ≠ []) (rest : List Char) :
    rest.length < (cs ++ rest).length := by
  have hpos : 0 < cs.length := List.length_pos_iff.2 h
  rw [List.length_append]
  omega

section Lengths

variable (l : Layout) (depth : Nat) (rest : List Char)

theorem length_le_writeItems {items : List Json}
    (h : ∀ j ∈ items, ∀ depth rest, rest.length < (j.write l depth rest).length) :
    rest.length ≤ (writeItems l depth items rest).length := by
  induction items with
  | nil => exact Nat.le_refl _
  | cons x xs ih =>
    obtain ⟨hx, hxs⟩ := List.forall_mem_cons.1 h
    have hfirst := hx depth (writeItems l depth xs rest)
    have hothers := ih hxs
    rw [writeItems, List.length_cons, List.length_append]
    omega

theorem length_le_writeEntries {entries : List (String × Json)}
    (h : ∀ entry ∈ entries, ∀ depth rest, rest.length < (entry.2.write l depth rest).length) :
    rest.length ≤ (writeEntries l depth entries rest).length := by
  induction entries with
  | nil => exact Nat.le_refl _
  | cons entry entries ih =>
    obtain ⟨key, x⟩ := entry
    obtain ⟨hx, hentries⟩ := List.forall_mem_cons.1 h
    have hfirst : _ < (x.write l depth (writeEntries l depth entries rest)).length := hx depth _
    have hothers := ih hentries
    have hkey := length_writeString key
      (l.colon ++ x.write l depth (writeEntries l depth entries rest))
    rw [List.length_append] at hkey
    rw [writeEntries, List.length_cons, List.length_append]
    omega

theorem length_lt_write (j : Json) : rest.length < (j.write l depth rest).length := by
  induction j using Json.induction generalizing depth rest with
  | null => exact length_lt_append (List.cons_ne_nil 'n' ['u', 'l', 'l']) rest
  | bool b =>
    cases b with
    | true => exact length_lt_append (List.cons_ne_nil 't' ['r', 'u', 'e']) rest
    | false => exact length_lt_append (List.cons_ne_nil 'f' ['a', 'l', 's', 'e']) rest
  | int n => exact length_lt_append (writeInt_ne_nil n) rest
  | double x => exact length_lt_append (write_double_ne_nil x) rest
  | string s => exact length_writeString s rest
  | array items ih =>
    cases items with
    | nil => exact length_lt_append (List.cons_ne_nil '[' [']']) rest
    | cons x xs =>
      obtain ⟨hx, hxs⟩ := List.forall_mem_cons.1 ih
      have hothers := length_le_writeItems l (depth + 1) (l.gap depth ++ ']' :: rest) hxs
      have hfirst := hx (depth + 1) (writeItems l (depth + 1) xs (l.gap depth ++ ']' :: rest))
      simp only [List.length_append, List.length_cons] at hothers
      simp only [write, List.length_append, List.length_cons]
      omega
  | object entries ih =>
    cases entries with
    | nil => exact length_lt_append (List.cons_ne_nil '{' ['}']) rest
    | cons entry entries =>
      obtain ⟨key, x⟩ := entry
      have hall : (l.gap depth ++ '}' :: rest).length ≤ (writeEntries l (depth + 1)
          ((key, x) :: entries) (l.gap depth ++ '}' :: rest)).length :=
        length_le_writeEntries l (depth + 1) _ ih
      simp only [writeEntries, List.length_append, List.length_cons] at hall
      simp only [write, List.length_append, List.length_cons]
      omega

end Lengths

/-! ## Round trip -/

/-- The text of JSON can express the value. -/
inductive Readable : Json → Prop
  | null : Readable .null
  | bool (b : Bool) : Readable (.bool b)
  | int {n : Int} (h : FitsWord n) : Readable (.int n)
  | double {x : Double} (h : x.isFinite) : Readable (.double x)
  | string (s : String) : Readable (.string s)
  | array {items : List Json} (h : ∀ j ∈ items, Readable j) : Readable (.array items)
  | object {entries : List (String × Json)} (ordered : Ordered entries)
    (h : ∀ entry ∈ entries, Readable entry.2) : Readable (.object entries)

/-- The text of the value is read as the value, with two steps for each character of it. -/
def ReadsBack (l : Layout) (j : Json) : Prop :=
  ∀ depth rest fuel, Stops continuesNumber rest →
    2 * (j.write l depth rest).length ≤ 2 * rest.length + fuel →
    readValue fuel (j.write l depth rest) = .ok (j, rest)

section Steps

variable {fuel : Nat} {cs behind after : List Char} {x : Json}

theorem readItems_last (hx : readValue fuel cs = .ok (x, behind))
    (hclose : skipBlanks behind = ']' :: rest) : readItems (fuel + 1) cs = .ok ([x], rest) := by
  simp only [readItems, hx, bind, Except.bind, hclose]

theorem readItems_more {xs : List Json} (hx : readValue fuel cs = .ok (x, behind))
    (hcomma : skipBlanks behind = ',' :: after) (hxs : readItems fuel after = .ok (xs, rest)) :
    readItems (fuel + 1) cs = .ok (x :: xs, rest) := by
  simp only [readItems, hx, bind, Except.bind, hcomma, hxs]

variable {key : String} {value : List Char}

/-- An array with items is read item by item; a text that has items does not begin with the bracket
that closes them. -/
theorem readValue_items {items : List Json} (h : readItems fuel cs = .ok (items, rest)) :
    readValue (fuel + 1) ('[' :: cs) = .ok (.array items, rest) := by
  have hopen : skipBlanks ('[' :: cs) = '[' :: cs := skipBlanks_cons rfl cs
  rw [← readItems_skipBlanks] at h
  simp only [readValue, hopen]
  split
  · next hclose =>
    rw [hclose] at h
    rcases fuel with _ | _ | fuel <;> cases h
  · simp only [h, bind, Except.bind]

theorem readEntries_last (hkey : readKey cs = .ok (key, value))
    (hx : readValue fuel value = .ok (x, behind)) (hclose : skipBlanks behind = '}' :: rest) :
    readEntries (fuel + 1) cs = .ok ([(key, x)], rest) := by
  simp only [readEntries, hkey, hx, bind, Except.bind, hclose]

theorem readEntries_more {entries : List (String × Json)} (hkey : readKey cs = .ok (key, value))
    (hx : readValue fuel value = .ok (x, behind)) (hcomma : skipBlanks behind = ',' :: after)
    (hentries : readEntries fuel after = .ok (entries, rest)) :
    readEntries (fuel + 1) cs = .ok ((key, x) :: entries, rest) := by
  simp only [readEntries, hkey, hx, bind, Except.bind, hcomma, hentries]

theorem readValue_entries {entries : List (String × Json)}
    (h : readEntries fuel cs = .ok (entries, rest)) :
    readValue (fuel + 1) ('{' :: cs) = .ok (.object (Entries.ofList entries), rest) := by
  have hopen : skipBlanks ('{' :: cs) = '{' :: cs := skipBlanks_cons rfl cs
  rw [← readEntries_skipBlanks] at h
  simp only [readValue, hopen]
  split
  · next hclose =>
    rw [hclose] at h
    cases fuel <;> cases h
  · simp only [h, bind, Except.bind]

end Steps

section Containers

variable {l : Layout} (hl : l.Spaced)

include hl

theorem readKey_write (key : String) (cs : List Char) :
    ∃ value, readKey (writeString key (l.colon ++ cs)) = .ok (key, value) ∧
      ∀ fuel, readValue fuel value = readValue fuel cs := by
  obtain ⟨blanks, hcolon, hblanks⟩ := hl.colon
  refine ⟨blanks ++ cs, ?_, fun fuel => ?_⟩
  · have hquote : skipBlanks (writeString key (l.colon ++ cs)) = writeString key (l.colon ++ cs) :=
      skipBlanks_cons rfl _
    rw [readKey, hquote, writeString]
    simp only [readString_write, bind, Except.bind, hcolon]
    rw [List.cons_append, skipBlanks_cons rfl]
    rfl
  · rw [← readValue_skipBlanks, skipBlanks_append hblanks, readValue_skipBlanks]

variable {depth fuel : Nat} {blanks : List Char} (hblanks : ∀ c ∈ blanks, isBlank c)

include hblanks

theorem readItems_write {x : Json} {xs : List Json} (h : ∀ j ∈ x :: xs, ReadsBack l j)
    (hfuel : 2 * (x.write l depth (writeItems l depth xs (blanks ++ ']' :: rest))).length <
      2 * rest.length + fuel) :
    readItems fuel (x.write l depth (writeItems l depth xs (blanks ++ ']' :: rest))) =
      .ok (x :: xs, rest) := by
  have hlast : rest.length < (blanks ++ ']' :: rest).length := by
    rw [List.length_append, List.length_cons]
    omega
  induction xs generalizing x fuel with
  | nil =>
    have hlonger := length_lt_write l depth (blanks ++ ']' :: rest) x
    rw [writeItems] at hfuel ⊢
    obtain ⟨fuel, rfl⟩ : ∃ n, fuel = n + 1 := ⟨fuel - 1, by omega⟩
    have hends : Stops continuesNumber (blanks ++ ']' :: rest) :=
      (stops_cons rfl rest).blanks_append hblanks
    have hread := h x List.mem_cons_self depth _ fuel hends (by omega)
    have hclose : skipBlanks (blanks ++ ']' :: rest) = ']' :: rest := by
      rw [skipBlanks_append hblanks, skipBlanks_cons rfl]
    exact readItems_last hread hclose
  | cons y ys ih =>
    obtain ⟨hx, hxs⟩ := List.forall_mem_cons.1 h
    have hlonger := length_lt_write l depth
      (writeItems l depth (y :: ys) (blanks ++ ']' :: rest)) x
    have hothers : (blanks ++ ']' :: rest).length ≤
        (writeItems l depth (y :: ys) (blanks ++ ']' :: rest)).length :=
      length_le_writeItems l depth _ fun j _ depth rest => length_lt_write l depth rest j
    obtain ⟨fuel, rfl⟩ : ∃ n, fuel = n + 1 := ⟨fuel - 1, by omega⟩
    have hends : Stops continuesNumber (writeItems l depth (y :: ys) (blanks ++ ']' :: rest)) :=
      stops_cons rfl _
    have hread := hx depth _ fuel hends (by omega)
    have hcomma : (writeItems l depth (y :: ys) (blanks ++ ']' :: rest)).length =
        1 + (l.gap depth).length +
          (y.write l depth (writeItems l depth ys (blanks ++ ']' :: rest))).length := by
      rw [writeItems, List.length_cons, List.length_append, Nat.add_comm, Nat.add_assoc]
    refine readItems_more hread (skipBlanks_cons rfl _) ?_
    rw [← readItems_skipBlanks, skipBlanks_append (hl.gap depth), readItems_skipBlanks]
    exact ih hxs (by omega)

theorem readEntries_write {key : String} {x : Json} {entries : List (String × Json)}
    (h : ∀ entry ∈ (key, x) :: entries, ReadsBack l entry.2)
    (hfuel : 2 * (x.write l depth (writeEntries l depth entries (blanks ++ '}' :: rest))).length <
      2 * rest.length + fuel) :
    readEntries fuel (writeString key
      (l.colon ++ x.write l depth (writeEntries l depth entries (blanks ++ '}' :: rest)))) =
      .ok ((key, x) :: entries, rest) := by
  have hlast : rest.length < (blanks ++ '}' :: rest).length := by
    rw [List.length_append, List.length_cons]
    omega
  induction entries generalizing key x fuel with
  | nil =>
    have hlonger := length_lt_write l depth (blanks ++ '}' :: rest) x
    rw [writeEntries] at hfuel ⊢
    obtain ⟨fuel, rfl⟩ : ∃ n, fuel = n + 1 := ⟨fuel - 1, by omega⟩
    have hends : Stops continuesNumber (blanks ++ '}' :: rest) :=
      (stops_cons rfl rest).blanks_append hblanks
    obtain ⟨value, hkey, hvalue⟩ := readKey_write hl key (x.write l depth (blanks ++ '}' :: rest))
    have hx : ReadsBack l x := h (key, x) List.mem_cons_self
    have hread := hx depth _ fuel hends (by omega)
    have hclose : skipBlanks (blanks ++ '}' :: rest) = '}' :: rest := by
      rw [skipBlanks_append hblanks, skipBlanks_cons rfl]
    exact readEntries_last hkey ((hvalue fuel).trans hread) hclose
  | cons entry entries ih =>
    obtain ⟨name, y⟩ := entry
    have hx : ReadsBack l x := h (key, x) List.mem_cons_self
    have hentries := (List.forall_mem_cons.1 h).2
    have hlonger := length_lt_write l depth
      (writeEntries l depth ((name, y) :: entries) (blanks ++ '}' :: rest)) x
    have hothers : (blanks ++ '}' :: rest).length ≤
        (writeEntries l depth ((name, y) :: entries) (blanks ++ '}' :: rest)).length :=
      length_le_writeEntries l depth _ fun entry _ depth rest =>
        length_lt_write l depth rest entry.2
    obtain ⟨fuel, rfl⟩ : ∃ n, fuel = n + 1 := ⟨fuel - 1, by omega⟩
    obtain ⟨value, hkey, hvalue⟩ := readKey_write hl key
      (x.write l depth (writeEntries l depth ((name, y) :: entries) (blanks ++ '}' :: rest)))
    have hends : Stops continuesNumber
        (writeEntries l depth ((name, y) :: entries) (blanks ++ '}' :: rest)) := stops_cons rfl _
    have hread := hx depth _ fuel hends (by omega)
    have hcomma : (y.write l depth (writeEntries l depth entries (blanks ++ '}' :: rest))).length <
        (writeEntries l depth ((name, y) :: entries) (blanks ++ '}' :: rest)).length := by
      have hname := length_writeString name
        (l.colon ++ y.write l depth (writeEntries l depth entries (blanks ++ '}' :: rest)))
      rw [List.length_append] at hname
      rw [writeEntries, List.length_cons, List.length_append]
      omega
    refine readEntries_more hkey ((hvalue fuel).trans hread) (skipBlanks_cons rfl _) ?_
    rw [← readEntries_skipBlanks, skipBlanks_append (hl.gap depth), readEntries_skipBlanks]
    exact ih hentries (by omega)

end Containers

section Values

variable {l : Layout}

/-- Each value has a character of its own, so there is fuel for the first step. -/
theorem readsBack_of_succ {j : Json}
    (h : ∀ depth rest fuel, Stops continuesNumber rest →
      2 * (j.write l depth rest).length ≤ 2 * rest.length + (fuel + 1) →
      readValue (fuel + 1) (j.write l depth rest) = .ok (j, rest)) : ReadsBack l j := by
  intro depth rest fuel hrest hfuel
  have hlonger := length_lt_write l depth rest j
  obtain ⟨fuel, rfl⟩ : ∃ n, fuel = n + 1 := ⟨fuel - 1, by omega⟩
  exact h depth rest fuel hrest hfuel

theorem readsBack_string (s : String) : ReadsBack l (.string s) := by
  refine readsBack_of_succ fun depth rest fuel _ _ => ?_
  have hquote : skipBlanks (writeString s rest) = writeString s rest := skipBlanks_cons rfl _
  rw [write, readValue, hquote, writeString]
  simp only [readString_write, bind, Except.bind]

variable (hl : l.Spaced)

include hl

theorem readsBack_array {items : List Json} (h : ∀ j ∈ items, ReadsBack l j) :
    ReadsBack l (.array items) := by
  refine readsBack_of_succ fun depth rest fuel _ hfuel => ?_
  cases items with
  | nil => rfl
  | cons x xs =>
    have hlength : ((Json.array (x :: xs)).write l depth rest).length =
        (x.write l (depth + 1) (writeItems l (depth + 1) xs (l.gap depth ++ ']' :: rest))).length +
          (l.gap (depth + 1)).length + 1 := by
      rw [write, List.length_cons, List.length_append, Nat.add_comm (l.gap (depth + 1)).length]
    rw [write]
    refine readValue_items ?_
    rw [← readItems_skipBlanks, skipBlanks_append (hl.gap (depth + 1)), readItems_skipBlanks]
    exact readItems_write hl (hl.gap depth) h (by omega)

theorem readsBack_object {entries : List (String × Json)} (hordered : Ordered entries)
    (h : ∀ entry ∈ entries, ReadsBack l entry.2) : ReadsBack l (.object entries) := by
  refine readsBack_of_succ fun depth rest fuel _ hfuel => ?_
  cases entries with
  | nil => rfl
  | cons entry entries =>
    obtain ⟨key, x⟩ := entry
    have hlength : (x.write l (depth + 1)
        (writeEntries l (depth + 1) entries (l.gap depth ++ '}' :: rest))).length <
          ((Json.object ((key, x) :: entries)).write l depth rest).length := by
      have hkey := length_writeString key (l.colon ++ x.write l (depth + 1)
        (writeEntries l (depth + 1) entries (l.gap depth ++ '}' :: rest)))
      rw [List.length_append] at hkey
      rw [write, List.length_cons, List.length_append]
      omega
    have hread : readEntries fuel (l.gap (depth + 1) ++ writeString key (l.colon ++
        x.write l (depth + 1) (writeEntries l (depth + 1) entries (l.gap depth ++ '}' :: rest)))) =
          .ok ((key, x) :: entries, rest) := by
      rw [← readEntries_skipBlanks, skipBlanks_append (hl.gap (depth + 1)), readEntries_skipBlanks]
      exact readEntries_write hl (hl.gap depth) h (by omega)
    rw [write, readValue_entries hread, Entries.ofList_of_ordered hordered]

theorem Readable.readsBack {j : Json} (h : j.Readable) : ReadsBack l j := by
  induction h with
  | null => exact readsBack_of_succ fun _ _ _ _ _ => rfl
  | bool b => cases b <;> exact readsBack_of_succ fun _ _ _ _ _ => rfl
  | int h =>
    exact readsBack_of_succ fun _ _ fuel hrest _ =>
      readValue_of_readNumber (readNumber_writeInt h hrest) fuel
  | double h =>
    exact readsBack_of_succ fun _ _ fuel hrest _ =>
      readValue_of_readNumber (readNumber_write h hrest) fuel
  | string s => exact readsBack_string s
  | array _ ih => exact readsBack_array hl ih
  | object ordered _ ih => exact readsBack_object hl ordered ih

/-- A text in any layout that is spaced is read as the value it was written for. -/
theorem Readable.read_write {j : Json} (h : j.Readable) :
    read (String.ofList (j.write l 0 [])) = .ok j := by
  have hread := h.readsBack hl 0 [] (2 * (j.write l 0 []).length + 2) stops_nil
    (by rw [List.length_nil]; omega)
  unfold read
  rw [String.toList_ofList]
  simp only [hread, bind, Except.bind]
  rfl

end Values

theorem Readable.read_pretty {j : Json} (h : j.Readable) : read j.pretty = .ok j :=
  h.read_write Layout.spaced_indented

end Conformance.Json
