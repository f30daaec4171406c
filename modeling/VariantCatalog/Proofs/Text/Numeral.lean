/-
# Numerals of a range

A numeral is a sign, where the range has one, and a row of digits.  It is read from the left
in one pass, which ends at the first problem: a character that is no digit, or a digit with
which the number leaves the range.  Since digits only lead away from zero, a number that the
range holds at the end was held all the way, so the pass comes to its value exactly if it
spells one.
-/

import VariantCatalog.Proofs.Text.Digits

namespace VariantCatalog.Text

/-! ## What a numeral says -/

/-- The number that digits stand for behind a sign. -/
def signedValue (negative : Bool) (digits : List Char) : Int :=
  if negative then -(decimalValue digits) else decimalValue digits

namespace IntegerRange

variable (range : IntegerRange)

/-- Whether a text begins with a minus sign, which only a range with negative numbers has. -/
def isNegative : List Char → Bool
  | '-' :: _ => range.least < 0
  | _ => false

/-- What stands behind the sign of a text, if it has one. -/
def behindSign : List Char → List Char
  | '+' :: rest => rest
  | '-' :: rest => if range.least < 0 then rest else '-' :: rest
  | text => text

/-- A text spells a number of a range: behind its sign stand digits, at least one, and what
they stand for lies in the range. -/
structure Spells (text : List Char) (number : Int) : Prop where
  ne_nil : range.behindSign text ≠ []
  areDigits : AreDigits (range.behindSign text)
  number_eq : number = signedValue (range.isNegative text) (range.behindSign text)
  holds : range.holds number

/-- What is met first behind a sign and digits that a range can hold: a character that is no
digit, or a digit with which the number leaves the range. -/
inductive Stops (negative : Bool) (chars : List Char) : NumeralError → Prop
  | invalidDigit {done rest : List Char} {c : Char} (h : chars = done ++ c :: rest)
      (hdone : AreDigits done) (hheld : range.holds (signedValue negative done))
      (hc : ¬ c.isDigit) : Stops negative chars .invalidDigit
  | tooLarge {done rest : List Char} {c : Char} (h : chars = done ++ c :: rest)
      (hdone : AreDigits done) (hheld : range.holds (signedValue negative done))
      (hc : c.isDigit) (hlarge : range.greatest < signedValue negative (done ++ [c])) :
      Stops negative chars .tooLarge
  | tooSmall {done rest : List Char} {c : Char} (h : chars = done ++ c :: rest)
      (hdone : AreDigits done) (hheld : range.holds (signedValue negative done))
      (hc : c.isDigit) (hsmall : signedValue negative (done ++ [c]) < range.least) :
      Stops negative chars .tooSmall

/-- The first problem with a text that spells no number of a range, from the left. -/
inductive Problem (text : List Char) : NumeralError → Prop
  | empty (h : text = []) : Problem text .empty
  | noDigits (h : text ≠ []) (hnone : range.behindSign text = []) : Problem text .invalidDigit
  | stops {problem : NumeralError}
      (h : range.Stops (range.isNegative text) (range.behindSign text) problem) :
      Problem text problem

end IntegerRange

/-! ## The value along the digits -/

section Value

variable {range : IntegerRange} {negative : Bool}

theorem holds_iff {n : Int} : range.holds n ↔ range.least ≤ n ∧ n ≤ range.greatest := by
  simp [IntegerRange.holds]

@[simp] theorem signedValue_nil : signedValue negative [] = 0 := by
  cases negative <;> rfl

/-- Digits lead away from zero, so the range that holds a number holds what its first digits
stand for. -/
theorem holds_of_append (hzero : range.holds 0) {first second : List Char}
    (h : range.holds (signedValue negative (first ++ second))) :
    range.holds (signedValue negative first) := by
  have hle := decimalValue_le_append first second
  rw [holds_iff] at hzero h ⊢
  cases negative with
  | false =>
      rw [signedValue, if_neg Bool.false_ne_true] at h ⊢
      omega
  | true =>
      rw [signedValue, if_pos rfl] at h ⊢
      omega

/-- A digit is added behind a value exactly if the range holds the longer one. -/
theorem appendDigit_eq (range : IntegerRange) (negative : Bool) (done : List Char) (c : Char) :
    appendDigit range negative (signedValue negative done) (c.toNat - '0'.toNat) =
      if negative then
        if signedValue negative (done ++ [c]) < range.least then .error .tooSmall
        else .ok (signedValue negative (done ++ [c]))
      else if range.greatest < signedValue negative (done ++ [c]) then .error .tooLarge
      else .ok (signedValue negative (done ++ [c])) := by
  cases negative with
  | false =>
      have hvalue : signedValue false done * 10 + (c.toNat - '0'.toNat : Nat) =
          signedValue false (done ++ [c]) := by
        simp [signedValue]
      rw [appendDigit, hvalue]
      rfl
  | true =>
      have hvalue : signedValue true done * 10 - (c.toNat - '0'.toNat : Nat) =
          signedValue true (done ++ [c]) := by
        simp only [signedValue, if_true, decimalValue_append_singleton, Nat.cast_add, Nat.cast_mul]
        omega
      rw [appendDigit, hvalue]
      rfl

theorem appendDigit_of_holds {done : List Char} {c : Char}
    (h : range.holds (signedValue negative (done ++ [c]))) :
    appendDigit range negative (signedValue negative done) (c.toNat - '0'.toNat) =
      .ok (signedValue negative (done ++ [c])) := by
  obtain ⟨hleast, hgreatest⟩ := holds_iff.mp h
  rw [appendDigit_eq]
  cases negative with
  | false => exact if_neg (Int.not_lt.mpr hgreatest)
  | true => exact if_neg (Int.not_lt.mpr hleast)

/-! ## The pass -/

/-- Digits that the range can hold are passed. -/
theorem readDigits_append (hzero : range.holds 0) {digits rest : List Char}
    (hdigits : AreDigits digits) :
    ∀ {done : List Char}, range.holds (signedValue negative (done ++ digits)) →
      readDigits range negative (signedValue negative done) (digits ++ rest) =
        readDigits range negative (signedValue negative (done ++ digits)) rest := by
  induction digits with
  | nil =>
      intro done _
      rw [List.nil_append, List.append_nil]
  | cons c digits ih =>
      intro done hheld
      obtain ⟨hc, hdigits⟩ := areDigits_cons.mp hdigits
      rw [← List.singleton_append, ← List.append_assoc] at hheld ⊢
      rw [List.cons_append, List.nil_append, List.cons_append, readDigits,
        digitValue?_of_isDigit hc]
      simp only [appendDigit_of_holds (holds_of_append hzero hheld)]
      exact ih hdigits hheld

theorem readDigits_of_areDigits (hzero : range.holds 0) {digits : List Char}
    (hdigits : AreDigits digits) (h : range.holds (signedValue negative digits)) :
    readDigits range negative 0 digits = .ok (signedValue negative digits) := by
  have hread : readDigits range negative (signedValue negative []) (digits ++ []) =
      readDigits range negative (signedValue negative digits) [] :=
    readDigits_append hzero hdigits h
  rwa [signedValue_nil, List.append_nil, readDigits] at hread

theorem readDigits_of_stops (hzero : range.holds 0) {chars : List Char} {problem : NumeralError}
    (h : range.Stops negative chars problem) :
    readDigits range negative 0 chars = .error problem := by
  -- The digits before the problem are passed, and the next character is the problem.
  have hpass : ∀ {done rest : List Char} {c : Char}, AreDigits done →
      range.holds (signedValue negative done) →
      readDigits range negative 0 (done ++ c :: rest) =
        readDigits range negative (signedValue negative done) (c :: rest) := by
    intro done rest c hdone hheld
    have hread : readDigits range negative (signedValue negative []) (done ++ c :: rest) =
        readDigits range negative (signedValue negative done) (c :: rest) :=
      readDigits_append hzero hdone hheld
    rwa [signedValue_nil] at hread
  have hbounds := holds_iff.mp hzero
  cases h with
  | invalidDigit h hdone hheld hc =>
      rw [h, hpass hdone hheld, readDigits, digitValue?_of_not_isDigit hc]
  | @tooLarge done _ c h hdone hheld hc hlarge =>
      have hsign : negative = false := by
        cases negative with
        | false => rfl
        | true =>
            rw [signedValue, if_pos rfl] at hlarge
            omega
      subst hsign
      rw [h, hpass hdone hheld, readDigits, digitValue?_of_isDigit hc]
      simp only [appendDigit_eq, if_pos hlarge, if_neg Bool.false_ne_true]
  | @tooSmall done _ c h hdone hheld hc hsmall =>
      have hsign : negative = true := by
        cases negative with
        | false =>
            rw [signedValue, if_neg Bool.false_ne_true] at hsmall
            omega
        | true => rfl
      subst hsign
      rw [h, hpass hdone hheld, readDigits, digitValue?_of_isDigit hc]
      simp only [appendDigit_eq, if_pos hsmall, if_true]

/-- Characters that are not digits of a number of the range stop the pass somewhere. -/
theorem areDigits_or_stops (hzero : range.holds 0) (negative : Bool) (chars : List Char) :
    (AreDigits chars ∧ range.holds (signedValue negative chars)) ∨
      ∃ problem, range.Stops negative chars problem := by
  induction chars using List.reverseRecOn with
  | nil => exact .inl ⟨areDigits_nil, by rwa [signedValue_nil]⟩
  | append_singleton chars c ih =>
      rcases ih with ⟨hdigits, hheld⟩ | ⟨problem, hstops⟩
      · by_cases hc : c.isDigit
        · by_cases hlarge : range.greatest < signedValue negative (chars ++ [c])
          · exact .inr ⟨_, .tooLarge rfl hdigits hheld hc hlarge⟩
          by_cases hsmall : signedValue negative (chars ++ [c]) < range.least
          · exact .inr ⟨_, .tooSmall rfl hdigits hheld hc hsmall⟩
          · exact .inl ⟨areDigits_append.mpr ⟨hdigits, by simpa using hc⟩,
              holds_iff.mpr ⟨Int.not_lt.mp hsmall, Int.not_lt.mp hlarge⟩⟩
        · exact .inr ⟨_, .invalidDigit rfl hdigits hheld hc⟩
      · -- What stopped the pass before stops it still.
        have hbehind : ∀ {done rest : List Char} {d : Char}, chars = done ++ d :: rest →
            chars ++ [c] = done ++ d :: (rest ++ [c]) := by
          rintro done rest d rfl
          simp
        cases hstops with
        | invalidDigit h hdone hheld hd => exact .inr ⟨_, .invalidDigit (hbehind h) hdone hheld hd⟩
        | tooLarge h hdone hheld hd hlarge =>
            exact .inr ⟨_, .tooLarge (hbehind h) hdone hheld hd hlarge⟩
        | tooSmall h hdone hheld hd hsmall =>
            exact .inr ⟨_, .tooSmall (hbehind h) hdone hheld hd hsmall⟩

end Value

/-! ## Reading a numeral -/

section Numeral

variable {range : IntegerRange} {text : List Char}

theorem readNumeral_eq (h : text ≠ []) :
    readNumeral range text = readSigned range (range.isNegative text) (range.behindSign text) := by
  unfold readNumeral
  split
  · exact absurd rfl h
  · rfl
  · next digits =>
    by_cases hleast : range.least < 0
    · simp [IntegerRange.isNegative, IntegerRange.behindSign, hleast]
    · simp [IntegerRange.isNegative, IntegerRange.behindSign, hleast, readSigned, readDigits,
        digitValue?_of_not_isDigit]
  · next hplus hminus =>
    have hsign : range.isNegative text = false := by
      unfold IntegerRange.isNegative
      split
      · exact absurd rfl (hminus _)
      · rfl
    have hbehind : range.behindSign text = text := by
      unfold IntegerRange.behindSign
      split
      · exact absurd rfl (hplus _)
      · exact absurd rfl (hminus _)
      · rfl
    rw [hsign, hbehind, readSigned, if_neg (by simpa using h)]

/-- A text is read as the number that it spells. -/
theorem readNumeral_of_spells (hzero : range.holds 0) {number : Int} (h : range.Spells text number) :
    readNumeral range text = .ok number := by
  have htext : text ≠ [] := by
    rintro rfl
    exact h.ne_nil rfl
  obtain ⟨hne, hdigits, rfl, hheld⟩ := h
  rw [readNumeral_eq htext, readSigned, if_neg (by simpa using hne),
    readDigits_of_areDigits hzero hdigits hheld]

/-- The problem with a text is reported. -/
theorem readNumeral_of_problem (hzero : range.holds 0) {problem : NumeralError}
    (h : range.Problem text problem) : readNumeral range text = .error problem := by
  cases h with
  | empty h => rw [h, readNumeral]
  | noDigits h hnone => rw [readNumeral_eq h, hnone, readSigned, List.isEmpty_nil, if_pos rfl]
  | stops h =>
      have hne : range.behindSign text ≠ [] := by
        intro hnil
        rw [hnil] at h
        cases h <;> simp_all
      have htext : text ≠ [] := by
        rintro rfl
        exact hne rfl
      rw [readNumeral_eq htext, readSigned, if_neg (by simpa using hne),
        readDigits_of_stops hzero h]

/-- A text spells a number or has a problem. -/
theorem spells_or_problem (hzero : range.holds 0) (text : List Char) :
    (∃ number, range.Spells text number) ∨ ∃ problem, range.Problem text problem := by
  by_cases htext : text = []
  · exact .inr ⟨_, .empty htext⟩
  by_cases hnone : range.behindSign text = []
  · exact .inr ⟨_, .noDigits htext hnone⟩
  rcases areDigits_or_stops hzero (range.isNegative text) (range.behindSign text) with
    ⟨hdigits, hheld⟩ | ⟨problem, hstops⟩
  · exact .inl ⟨_, hnone, hdigits, rfl, hheld⟩
  · exact .inr ⟨_, .stops hstops⟩

theorem readNumeral_eq_ok_iff (hzero : range.holds 0) {number : Int} :
    readNumeral range text = .ok number ↔ range.Spells text number := by
  refine ⟨fun h => ?_, readNumeral_of_spells hzero⟩
  rcases spells_or_problem hzero text with ⟨other, hspells⟩ | ⟨problem, hproblem⟩
  · rw [readNumeral_of_spells hzero hspells] at h
    exact Except.ok.inj h ▸ hspells
  · rw [readNumeral_of_problem hzero hproblem] at h
    cases h

theorem readNumeral_eq_error_iff (hzero : range.holds 0) {problem : NumeralError} :
    readNumeral range text = .error problem ↔ range.Problem text problem := by
  refine ⟨fun h => ?_, readNumeral_of_problem hzero⟩
  rcases spells_or_problem hzero text with ⟨number, hspells⟩ | ⟨other, hproblem⟩
  · rw [readNumeral_of_spells hzero hspells] at h
    cases h
  · rw [readNumeral_of_problem hzero hproblem] at h
    exact Except.error.inj h ▸ hproblem

/-- Digits have no sign. -/
theorem sign_of_areDigits (range : IntegerRange) (h : AreDigits text) :
    range.isNegative text = false ∧ range.behindSign text = text := by
  cases text with
  | nil => exact ⟨rfl, rfl⟩
  | cons c rest =>
      have hc := (areDigits_cons.mp h).1
      have hplus : c ≠ '+' := by
        rintro rfl
        exact absurd hc (by decide)
      have hminus : c ≠ '-' := by
        rintro rfl
        exact absurd hc (by decide)
      simp [IntegerRange.isNegative, IntegerRange.behindSign, hplus, hminus]

end Numeral

end VariantCatalog.Text
