/-
# SKUs that are spelled out

The SKU of a variant is the prefix with the values of the variant behind it, in lower case.
Of the prefix it is checked that it can go into a web address; of the values, only that they
are not blank.  So whether the SKU can go into a web address is up to the values.

Lower case does little to change that: besides the restricted characters, which stay what
they are, the Kelvin sign alone becomes one, since it is spelled as a small `k`.
-/

import VariantCatalog.Proofs.Operation.Availability
import VariantCatalog.Proofs.Request.Validation

namespace VariantCatalog

open Text

/-! ## Lower case -/

namespace Text

/-- A letter is shifted by a run that it is in, or not at all. -/
theorem lowercaseShift_cases (code : Nat) (runs : List CaseRun) :
    lowercaseShift code runs = 0 ∨
      ∃ run ∈ runs, run.first ≤ code ∧ code ≤ run.last ∧
        lowercaseShift code runs = run.shift := by
  induction runs with
  | nil => exact .inl rfl
  | cons run rest ih =>
      rw [lowercaseShift]
      split
      · exact .inl rfl
      · next hfirst =>
        split
        · next hlast =>
          exact .inr ⟨run, List.mem_cons_self, Nat.le_of_not_lt hfirst, hlast.1, rfl⟩
        · exact ih.imp_right fun ⟨other, hother, hshift⟩ =>
            ⟨other, List.mem_cons_of_mem _ hother, hshift⟩

/-- Of all runs that are not in ASCII, only that of the Kelvin sign leads there. -/
theorem caseRuns_cases : ∀ run ∈ caseRuns,
    run.last < 0x80 ∨ run.first = 0x212A ∧ run.last = 0x212A ∨
      (0x80 : Int) ≤ run.first + run.shift := by decide +kernel

end Text

namespace Sku

/-- The code points of restricted characters. -/
def IsRestrictedCode (code : Nat) : Prop :=
  (0x41 ≤ code ∧ code ≤ 0x5A) ∨ (0x61 ≤ code ∧ code ≤ 0x7A) ∨ (0x30 ≤ code ∧ code ≤ 0x39) ∨
    code = 0x5F ∨ code = 0x2D

instance (code : Nat) : Decidable (IsRestrictedCode code) :=
  inferInstanceAs (Decidable (_ ∨ _))

theorem IsRestrictedCode.lt {code : Nat} (h : IsRestrictedCode code) : code < 0x80 := by
  rw [IsRestrictedCode] at h
  omega

theorem isRestrictedChar_iff_code {c : Char} :
    IsRestrictedChar c ↔ IsRestrictedCode c.toNat :=
  isRestrictedChar_iff_toNat

/-- A number that is no code point stands for a character that is not restricted either. -/
theorem isRestrictedChar_ofNat (code : Nat) :
    IsRestrictedChar (Char.ofNat code) ↔ IsRestrictedCode code := by
  by_cases hvalid : code.isValidChar
  · have hcode : (Char.ofNat code).toNat = code := by rw [Char.ofNat, dif_pos hvalid]; rfl
    rw [isRestrictedChar_iff_code, hcode]
  · have hzero : Char.ofNat code = Char.ofNat 0 := by
      rw [Char.ofNat, dif_neg hvalid]
      rfl
    rw [hzero]
    constructor
    · intro h
      exact absurd h (by decide)
    · intro h
      exact absurd (.inl (Nat.lt_trans h.lt (by decide))) hvalid

theorem isRestrictedCode_lowercase (code : Nat) :
    IsRestrictedCode ((code : Int) + lowercaseShift code caseRuns).toNat ↔
      IsRestrictedCode code ∨ code = 0x212A := by
  have hascii : ∀ code : Nat, code < 0x80 →
      (IsRestrictedCode ((code : Int) + lowercaseShift code caseRuns).toNat ↔
        IsRestrictedCode code) := by decide +kernel
  by_cases hlow : code < 0x80
  · rw [hascii code hlow, or_iff_left]
    omega
  have hbeyond : ¬ IsRestrictedCode code := fun h => hlow h.lt
  rw [or_iff_right hbeyond]
  constructor
  · intro h
    have hlt := h.lt
    rcases lowercaseShift_cases code caseRuns with hzero | ⟨run, hrun, hfirst, hlast, hshift⟩
    · rw [hzero] at hlt
      omega
    · rw [hshift] at hlt
      rcases caseRuns_cases run hrun with hascii | hkelvin | hhigh
      · omega
      · omega
      · omega
  · rintro rfl
    decide +kernel

/-- A character that is a restricted one in lower case: it is one, or the Kelvin sign. -/
def IsSpellableChar (c : Char) : Prop := IsRestrictedChar c ∨ c = '\u212A'

instance (c : Char) : Decidable (IsSpellableChar c) :=
  inferInstanceAs (Decidable (_ ∨ _))

theorem isRestrictedChar_lowercaseLetter (c : Char) :
    IsRestrictedChar (lowercaseLetter c) ↔ IsSpellableChar c := by
  have hkelvin : c = '\u212A' ↔ c.toNat = 0x212A := by
    rw [Char.ext_iff, ← UInt32.toNat_inj]
    rfl
  rw [lowercaseLetter, isRestrictedChar_ofNat, isRestrictedCode_lowercase,
    ← isRestrictedChar_iff_code, IsSpellableChar, hkelvin]

/-- Where a letter becomes another one than its lowercase letter, or two, none of it is
restricted throughout. -/
theorem lowercaseChar_restricted_iff (before : List Char) (c : Char) (after : List Char) :
    (∀ d ∈ lowercaseChar before c after, IsRestrictedChar d) ↔ IsSpellableChar c := by
  rw [lowercaseChar]
  split
  · next hsigma =>
    subst hsigma
    rw [List.forall_mem_singleton]
    split
    · decide
    · decide
  · split
    · next hdotted =>
      subst hdotted
      rw [List.forall_mem_cons, List.forall_mem_singleton]
      decide
    · rw [List.forall_mem_singleton, isRestrictedChar_lowercaseLetter]

theorem lowercaseFrom_restricted_iff (chars before : List Char) :
    (∀ d ∈ lowercaseFrom before chars, IsRestrictedChar d) ↔ ∀ c ∈ chars, IsSpellableChar c := by
  induction chars generalizing before with
  | nil => simp [lowercaseFrom]
  | cons c after ih =>
      rw [lowercaseFrom, List.forall_mem_append, lowercaseChar_restricted_iff, ih,
        List.forall_mem_cons]

theorem lowercase_restricted_iff (text : String) :
    (∀ d ∈ (lowercase text).toList, IsRestrictedChar d) ↔
      ∀ c ∈ text.toList, IsSpellableChar c := by
  rw [lowercase, String.toList_ofList, lowercaseFrom_restricted_iff]

theorem restricted_mark : ∀ d ∈ "_".toList, IsRestrictedChar d :=
  List.forall_mem_singleton.mpr (by decide)

/-- Texts in a row are restricted if each of them is. -/
theorem intercalate_restricted_iff (texts : List String) :
    (∀ d ∈ ("_".intercalate texts).toList, IsRestrictedChar d) ↔
      ∀ text ∈ texts, ∀ d ∈ text.toList, IsRestrictedChar d := by
  induction texts with
  | nil => simp
  | cons text rest ih =>
      cases rest with
      | nil => simp
      | cons next rest =>
          rw [String.intercalate_cons_cons, String.toList_append, String.toList_append,
            List.forall_mem_append, List.forall_mem_append, and_iff_left restricted_mark,
            List.forall_mem_cons]
          exact and_congr_right fun _ => ih

end Sku

/-! ## The SKU of a variant -/

namespace Creation

/-- The SKU of the variant that some values are chosen for; without options it is the
prefix. -/
def skuFor (creation : Creation) (texts : List String) : String :=
  if creation.options.isEmpty then creation.product.sku else creation.skuOf texts

theorem mem_skus_iff {creation : Creation} {sku : String} :
    sku ∈ creation.skus ↔
      ∃ texts ∈ OptionSpec.choices creation.options, sku = creation.skuFor texts := by
  rw [skus]
  by_cases hempty : creation.options.isEmpty
  · simp [skuFor, List.isEmpty_iff.mp hempty, OptionSpec.choices]
  · simp [skuFor, hempty, eq_comm]

/-- Behind a prefix that is restricted, the SKU of a variant is restricted just if its values
can be spelled. -/
theorem isRestricted_skuFor_iff {creation : Creation} {texts : List String}
    (hroot : Sku.IsRestricted creation.product.sku)
    (htexts : texts ∈ OptionSpec.choices creation.options) :
    Sku.IsRestricted (creation.skuFor texts) ↔
      ∀ text ∈ texts, ∀ c ∈ text.toList, Sku.IsSpellableChar c := by
  rw [skuFor]
  split
  · next hempty =>
    rw [List.isEmpty_iff.mp hempty, OptionSpec.choices, List.mem_singleton] at htexts
    simp [htexts, hroot]
  · have hne : creation.skuOf texts ≠ "" := by
      intro h
      simp [skuOf] at h
    rw [Sku.IsRestricted, and_iff_right hne, skuOf, String.toList_append, String.toList_append,
      List.forall_mem_append, List.forall_mem_append, and_iff_right ⟨hroot.2, Sku.restricted_mark⟩,
      Sku.intercalate_restricted_iff, List.forall_mem_map]
    simp only [Sku.lowercase_restricted_iff]

end Creation

end VariantCatalog
