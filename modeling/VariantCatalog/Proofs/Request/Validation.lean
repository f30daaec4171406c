/-
# Which creations are accepted

A creation is accepted just if it is well-formed and makes no more variants than the limit
allows (`Creation.validate_eq_ok_iff`).  What it takes to be well-formed is said here of
characters and of unbounded numbers, without a word on how it is found out: a name is not
blank if something is left of it once it is trimmed, a SKU is made of the characters of a web
address, and the number of variants is the product of the numbers of values.

The program looks at bytes and at counts of sixty-four bits instead, and it comes to the
same.  No byte of a character beyond ASCII is that of an ASCII character, so bytes tell
enough.  And when the numbers of values are multiplied up, none of them is zero any more, so
a product that does not fit on the way never comes back below a limit that does.
-/

import VariantCatalog.Operation.Basic
import VariantCatalog.Proofs.Expansion.Walk
import VariantCatalog.Proofs.Memory.Merge
import Mathlib.Data.List.TakeWhile

namespace VariantCatalog

open Text Expansion

/-! ## Blank texts -/

namespace Text

theorem trimChars_eq_nil_iff {chars : List Char} :
    trimChars chars = [] ↔ ∀ c ∈ chars, isBlank c = true := by
  rw [trimChars, List.reverse_eq_nil_iff, List.dropWhile_eq_nil_iff]
  constructor
  · intro hrest
    rw [← List.dropWhile_eq_nil_iff]
    -- What is left would begin with a character that is not blank.
    by_contra hne
    have hhead := List.head_dropWhile_not isBlank hne
    rw [hrest _ (List.mem_reverse.mpr (List.head_mem hne))] at hhead
    cases hhead
  · intro hall c hc
    exact hall c ((List.dropWhile_sublist _).subset (List.mem_reverse.mp hc))

/-- A text is blank just if nothing is left of it once it is trimmed. -/
theorem isBlankText_iff {text : String} : isBlankText text = true ↔ trim text = "" := by
  rw [isBlankText, List.all_eq_true, ← trimChars_eq_nil_iff, trim, String.ofList_eq_empty_iff]

end Text

/-! ## SKUs -/

namespace Sku

/-- The characters `A` to `Z`, `a` to `z`, `0` to `9`, `_` and `-`. -/
def IsRestrictedChar (c : Char) : Prop :=
  ('A' ≤ c ∧ c ≤ 'Z') ∨ ('a' ≤ c ∧ c ≤ 'z') ∨ ('0' ≤ c ∧ c ≤ '9') ∨ c = '_' ∨ c = '-'

/-- A SKU is not empty and made of restricted characters only. -/
def IsRestricted (sku : String) : Prop :=
  sku ≠ "" ∧ ∀ c ∈ sku.toList, IsRestrictedChar c

instance (c : Char) : Decidable (IsRestrictedChar c) :=
  inferInstanceAs (Decidable (_ ∨ _))

-- Among the characters of the SKU, that is: there are too many to look at all of them.
instance (sku : String) : Decidable (IsRestricted sku) :=
  @instDecidableAnd _ _ inferInstance (List.decidableBAll _ sku.toList)

theorem isRestrictedChar_iff_toNat {c : Char} :
    IsRestrictedChar c ↔ (0x41 ≤ c.toNat ∧ c.toNat ≤ 0x5A) ∨ (0x61 ≤ c.toNat ∧ c.toNat ≤ 0x7A) ∨
      (0x30 ≤ c.toNat ∧ c.toNat ≤ 0x39) ∨ c.toNat = 0x5F ∨ c.toNat = 0x2D := by
  simp only [IsRestrictedChar, Char.le_def, UInt32.le_iff_toNat_le, Char.ext_iff,
    ← UInt32.toNat_inj]
  exact Iff.rfl

theorem isRestrictedByte_iff_toNat {byte : UInt8} :
    isRestrictedByte byte = true ↔ (0x41 ≤ byte.toNat ∧ byte.toNat ≤ 0x5A) ∨
      (0x61 ≤ byte.toNat ∧ byte.toNat ≤ 0x7A) ∨ (0x30 ≤ byte.toNat ∧ byte.toNat ≤ 0x39) ∨
        byte.toNat = 0x5F ∨ byte.toNat = 0x2D := by
  simp only [isRestrictedByte, Bool.or_eq_true, Bool.and_eq_true, decide_eq_true_eq,
    UInt8.le_iff_toNat_le, ← UInt8.toNat_inj, UInt8.reduceToNat]
  omega

/-- A character beyond ASCII begins with a byte that no ASCII character has. -/
theorem exists_utf8EncodeChar_eq_cons {c : Char} (h : ¬ c.toNat ≤ 0x7F) :
    ∃ first rest, String.utf8EncodeChar c = first :: rest ∧ 0x80 ≤ first.toNat := by
  have hmark : ∀ payload mark : Nat, 0x80 ≤ mark → payload + mark < 0x100 →
      0x80 ≤ (UInt8.ofNat (payload + mark)).toNat := by
    intro payload mark hmark hlt
    rw [UInt8.toNat_ofNat_of_lt' hlt]
    omega
  have hval : ¬ c.val.toNat ≤ 0x7F := h
  rw [String.utf8EncodeChar, if_neg hval]
  split
  · exact ⟨_, _, rfl, hmark _ 0xC0 (by decide) (by omega)⟩
  · split
    · exact ⟨_, _, rfl, hmark _ 0xE0 (by decide) (by omega)⟩
    · exact ⟨_, _, rfl, hmark _ 0xF0 (by decide) (by omega)⟩

/-- The bytes of a character are restricted just if the character is. -/
theorem all_utf8EncodeChar_iff {c : Char} :
    (String.utf8EncodeChar c).all isRestrictedByte = true ↔ IsRestrictedChar c := by
  rw [isRestrictedChar_iff_toNat]
  by_cases hascii : c.toNat ≤ 0x7F
  · have hbytes : String.utf8EncodeChar c = [UInt8.ofNat c.toNat] := if_pos hascii
    have hbyte : (UInt8.ofNat c.toNat).toNat = c.toNat :=
      UInt8.toNat_ofNat_of_lt' (Nat.lt_of_le_of_lt hascii (by decide))
    rw [hbytes, List.all_cons, List.all_nil, Bool.and_true, isRestrictedByte_iff_toNat, hbyte]
  · obtain ⟨first, rest, hbytes, hhigh⟩ := exists_utf8EncodeChar_eq_cons hascii
    rw [hbytes, List.all_cons, Bool.and_eq_true, isRestrictedByte_iff_toNat]
    omega

/-- The bytes of a text tell whether it is made of restricted characters. -/
theorem isRestricted_iff {sku : String} : isRestricted sku = true ↔ IsRestricted sku := by
  have hempty : (!sku.isEmpty) = true ↔ sku ≠ "" := by
    rw [Bool.not_eq_true', Bool.eq_false_iff, Ne, String.isEmpty_iff]
  rw [isRestricted, Bool.and_eq_true, hempty, utf8Bytes, List.all_flatMap, List.all_eq_true,
    IsRestricted]
  simp only [all_utf8EncodeChar_iff]

end Sku

/-! ## Options -/

namespace OptionSpec

/-- An option has a name and some values, none of them blank. -/
structure WellFormed (spec : OptionSpec) : Prop where
  name : trim spec.name ≠ ""
  values : spec.values ≠ []
  texts : ∀ text ∈ spec.values, trim text ≠ ""

/-- What is wrong with an option when it is said to have a flaw. -/
def Has (spec : OptionSpec) : Flaw → Prop
  | .blankOptionName => trim spec.name = ""
  | .optionWithoutValues name => spec.name = name ∧ spec.values = []
  | .blankValueOfOption name => spec.name = name ∧ ∃ text ∈ spec.values, trim text = ""
  | _ => False

theorem Has.not_wellFormed {spec : OptionSpec} {flaw : Flaw} (h : spec.Has flaw) :
    ¬ spec.WellFormed := by
  intro hwell
  cases flaw with
  | blankOptionName => exact hwell.name h
  | optionWithoutValues name => exact hwell.values h.2
  | blankValueOfOption name =>
      obtain ⟨_, text, htext, hblank⟩ := h
      exact hwell.texts text htext hblank
  | _ => cases h

/-- An option is accepted if it is well-formed, and otherwise it has the flaw that it is
rejected for. -/
theorem validate_cases (spec : OptionSpec) :
    spec.validate = .ok () ∧ spec.WellFormed ∨
      ∃ flaw, spec.validate = .error flaw ∧ spec.Has flaw := by
  rw [validate]
  split
  · next hname => exact .inr ⟨_, rfl, isBlankText_iff.mp hname⟩
  · next hname =>
    split
    · next hempty => exact .inr ⟨_, rfl, rfl, List.isEmpty_iff.mp hempty⟩
    · next hempty =>
      split
      · next hvalue =>
        obtain ⟨text, htext, hblank⟩ := List.any_eq_true.mp hvalue
        exact .inr ⟨_, rfl, rfl, text, htext, isBlankText_iff.mp hblank⟩
      · next hvalue =>
        refine .inl ⟨rfl, fun hblank => hname (isBlankText_iff.mpr hblank),
          fun hnil => hempty (List.isEmpty_iff.mpr hnil), fun text htext hblank => hvalue ?_⟩
        exact List.any_eq_true.mpr ⟨text, htext, isBlankText_iff.mpr hblank⟩

theorem wellFormed_of_validate {spec : OptionSpec} (h : spec.validate = .ok ()) :
    spec.WellFormed := by
  rcases spec.validate_cases with ⟨_, hwell⟩ | ⟨flaw, hflaw, _⟩
  · exact hwell
  · rw [hflaw] at h
    cases h

end OptionSpec

/-! ## Creations -/

namespace Creation

/-- A creation names its product, has a SKU that can go into a web address, and lists
well-formed options only. -/
structure WellFormed (creation : Creation) : Prop where
  name : trim creation.product.details.name ≠ ""
  sku : Sku.IsRestricted creation.product.sku
  options : ∀ spec ∈ creation.options, spec.WellFormed

/-- The number of variants, however great: one without options. -/
def variantCount (creation : Creation) : Nat :=
  (creation.options.map (·.values.length)).prod

/-- What is wrong with a creation when it is said to have a flaw. -/
def Has (creation : Creation) (limit : Option Nat) : Flaw → Prop
  | .blankName => trim creation.product.details.name = ""
  | .invalidSku sku => sku = creation.product.sku ∧ ¬ Sku.IsRestricted sku
  | .tooManyVariants requested most =>
    limit = some most ∧ requested = creation.variantCount ∧ most < requested
  | .uncountableVariants most => limit = some most ∧ countBound ≤ creation.variantCount
  | flaw => ∃ spec ∈ creation.options, spec.Has flaw

variable {creation : Creation} {limit : Option Nat}

theorem has_of_mem {spec : OptionSpec} (hspec : spec ∈ creation.options) {flaw : Flaw}
    (h : spec.Has flaw) : creation.Has limit flaw := by
  cases flaw with
  | blankName => cases h
  | invalidSku sku => cases h
  | tooManyVariants requested most => cases h
  | uncountableVariants most => cases h
  | _ => exact ⟨spec, hspec, h⟩

/-- A creation that has a flaw is not what a creation should be. -/
theorem Has.not_wellFormed {flaw : Flaw} (h : creation.Has limit flaw)
    (hlimit : ∀ most ∈ limit, most < countBound) :
    ¬ (creation.WellFormed ∧ ∀ most ∈ limit, creation.variantCount ≤ most) := by
  rintro ⟨hwell, hwithin⟩
  cases flaw with
  | blankName => exact hwell.name h
  | invalidSku sku =>
      obtain ⟨rfl, hsku⟩ := h
      exact hsku hwell.sku
  | tooManyVariants requested most =>
      obtain ⟨rfl, rfl, hlt⟩ := h
      exact Nat.not_le.mpr hlt (hwithin most rfl)
  | uncountableVariants most =>
      obtain ⟨rfl, hbound⟩ := h
      exact Nat.not_le.mpr (Nat.lt_of_lt_of_le (hlimit most rfl) hbound) (hwithin most rfl)
  | _ =>
      obtain ⟨spec, hspec, hhas⟩ := h
      exact hhas.not_wellFormed (hwell.options spec hspec)

/-- Where no option is without values, the number of variants is counted right, or is found to
be no count. -/
theorem variantCount?_eq (hvalues : ∀ spec ∈ creation.options, spec.values ≠ []) :
    creation.variantCount? =
      if creation.variantCount < countBound then some creation.variantCount else none := by
  cases hoptions : creation.options with
  | nil =>
      rw [variantCount?, variantCount, hoptions]
      rfl
  | cons spec rest =>
      have hcounts : ∀ count ∈ creation.options.map (·.values.length), 0 < count := by
        intro count hcount
        obtain ⟨spec, hspec, rfl⟩ := List.mem_map.mp hcount
        exact List.length_pos_iff.mpr (hvalues spec hspec)
      have hfold := foldlM_multiply? hcounts 1 ⟨Nat.one_pos, by decide⟩
      rw [Nat.one_mul] at hfold
      have hcount : combinationCount? (creation.options.map (·.values.length)) =
          if creation.variantCount < countBound then some creation.variantCount else none := by
        rw [variantCount]
        rw [hoptions] at hfold ⊢
        exact hfold
      have hpos : 1 ≤ creation.variantCount := List.prod_pos hcounts
      rw [variantCount?, hcount]
      split
      · rw [Option.map_some, Nat.max_eq_left hpos]
      · rfl

theorem checkLimit_cases (limit : Option Nat)
    (hvalues : ∀ spec ∈ creation.options, spec.values ≠ []) :
    creation.checkLimit limit = .ok () ∧ (∀ most ∈ limit, creation.variantCount ≤ most) ∨
      ∃ flaw, creation.checkLimit limit = .error flaw ∧ creation.Has limit flaw := by
  cases limit with
  | none => exact .inl ⟨rfl, nofun⟩
  | some most =>
      rw [checkLimit, variantCount?_eq hvalues]
      by_cases hcount : creation.variantCount < countBound
      · rw [if_pos hcount]
        dsimp only
        split
        · next hle =>
          refine .inl ⟨rfl, fun other hother => ?_⟩
          cases hother
          exact hle
        · next hgt => exact .inr ⟨_, rfl, rfl, rfl, Nat.not_le.mp hgt⟩
      · rw [if_neg hcount]
        exact .inr ⟨_, rfl, rfl, Nat.not_lt.mp hcount⟩

theorem validate_eq (creation : Creation) (limit : Option Nat) :
    creation.validate limit =
      if isBlankText creation.product.details.name then .error .blankName
      else Sku.validate creation.product.sku >>= fun _ =>
        creation.options.forM OptionSpec.validate >>= fun _ => creation.checkLimit limit := by
  rw [validate]
  split <;> rfl

/-- A creation is accepted if it is what it should be, and otherwise it has the flaw that it is
rejected for. -/
theorem validate_creation_cases (creation : Creation) (limit : Option Nat) :
    creation.validate limit = .ok () ∧ creation.WellFormed ∧
        (∀ most ∈ limit, creation.variantCount ≤ most) ∨
      ∃ flaw, creation.validate limit = .error flaw ∧ creation.Has limit flaw := by
  rw [validate_eq]
  split
  · next hname => exact .inr ⟨_, rfl, isBlankText_iff.mp hname⟩
  · next hname =>
    rw [Sku.validate]
    split
    · next hsku =>
      have hspecs : creation.options.forM OptionSpec.validate = .ok () ∨
          ∃ flaw, creation.options.forM OptionSpec.validate = .error flaw ∧
            creation.Has limit flaw := by
        apply Committed.forM_cases
        intro spec hspec
        rcases spec.validate_cases with ⟨hok, _⟩ | ⟨flaw, hflaw, hhas⟩
        · exact .inl hok
        · exact .inr ⟨flaw, hflaw, has_of_mem hspec hhas⟩
      rcases hspecs with hvalid | ⟨flaw, hflaw, hhas⟩
      · have hoptions : ∀ spec ∈ creation.options, spec.WellFormed := fun spec hspec =>
          OptionSpec.wellFormed_of_validate ((Committed.forM_eq_ok _ _).mp hvalid spec hspec)
        rw [hvalid]
        rcases checkLimit_cases limit fun spec hspec => (hoptions spec hspec).values with
          ⟨hok, hwithin⟩ | ⟨flaw, hflaw, hhas⟩
        · exact .inl ⟨hok, ⟨fun hblank => hname (isBlankText_iff.mpr hblank),
            Sku.isRestricted_iff.mp hsku, hoptions⟩, hwithin⟩
        · exact .inr ⟨flaw, hflaw, hhas⟩
      · rw [hflaw]
        exact .inr ⟨flaw, rfl, hhas⟩
    · next hsku =>
      exact .inr ⟨_, rfl, rfl, fun hrestricted => hsku (Sku.isRestricted_iff.mpr hrestricted)⟩

theorem wellFormed_of_validate (h : creation.validate limit = .ok ()) : creation.WellFormed := by
  rcases validate_creation_cases creation limit with ⟨_, hwell, _⟩ | ⟨flaw, hflaw, _⟩
  · exact hwell
  · rw [hflaw] at h
    cases h

/-- **A creation is accepted just if it is well-formed and makes no more variants than the
limit allows.** The limit is a count, and may be the greatest one. Any other creation is
rejected as invalid, for a flaw that it has. -/
theorem validate_eq_ok_iff (creation : Creation) {limit : Option Nat}
    (hlimit : ∀ most ∈ limit, most < countBound) :
    (creation.validate limit = .ok () ↔
        creation.WellFormed ∧ ∀ most ∈ limit, creation.variantCount ≤ most) ∧
      (creation.validate limit ≠ .ok () → ∃ flaw, creation.Has limit flaw ∧
        (creation.validate limit).mapError DomainError.ofFlaw =
          .error (.validation flaw.message)) := by
  rcases validate_creation_cases creation limit with ⟨hok, hgood⟩ | ⟨flaw, hflaw, hhas⟩
  · exact ⟨⟨fun _ => hgood, fun _ => hok⟩, fun hne => absurd hok hne⟩
  · refine ⟨⟨fun hok => ?_, fun hgood => absurd hgood (hhas.not_wellFormed hlimit)⟩,
      fun _ => ⟨flaw, hhas, ?_⟩⟩
    · rw [hflaw] at hok
      cases hok
    · rw [hflaw]
      rfl

/-- A towel with some edges, each of them plain or sewn. -/
def towel (edges : Nat) : Creation where
  product :=
    { sku := "towel_1"
      details := ⟨"Towel", none, "", none, none, none, 1, 1, true, 990, false, none, 400,
        .zero, .zero⟩
      availableOn := none }
  options := List.replicate edges ⟨"Edge", ["plain", "sewn"]⟩

theorem variantCount_towel (edges : Nat) : (towel edges).variantCount = 2 ^ edges := by
  rw [variantCount, towel, List.map_replicate, List.prod_replicate]
  rfl

theorem wellFormed_towel (edges : Nat) : (towel edges).WellFormed where
  name := show trim "Towel" ≠ "" by decide
  sku := show Sku.IsRestricted "towel_1" by decide
  options spec hspec := by
    obtain rfl := List.eq_of_mem_replicate hspec
    exact ⟨by decide, by decide, by decide⟩

/-- The greatest limit that there is allows `2 ^ 63` variants and does not allow `2 ^ 64`, which
is no count any more. -/
theorem validate_eq_ok_iff_towel :
    (towel 63).validate (some (countBound - 1)) = .ok () ∧
      ∃ flaw, (towel 64).Has (some (countBound - 1)) flaw ∧
        ((towel 64).validate (some (countBound - 1))).mapError DomainError.ofFlaw =
          .error (.validation flaw.message) := by
  have hlimit : ∀ most ∈ some (countBound - 1), most < countBound := by decide
  constructor
  · refine (validate_eq_ok_iff (towel 63) hlimit).1.mpr ⟨wellFormed_towel 63, ?_⟩
    rw [variantCount_towel]
    decide
  · refine (validate_eq_ok_iff (towel 64) hlimit).2 fun hok => ?_
    obtain ⟨_, hwithin⟩ := (validate_eq_ok_iff (towel 64) hlimit).1.mp hok
    have hle := hwithin _ rfl
    rw [variantCount_towel] at hle
    exact absurd hle (by decide)

end Creation

/-! ## Operations -/

namespace Operation

theorem check_eq_ok_of_screen {operation : Operation} {limit : Option Nat}
    (h : operation.screen limit = .ok ()) : operation.check limit = .ok () := by
  rw [screen] at h
  cases hcheck : operation.check limit with
  | ok _ => rfl
  | error flaw =>
      rw [hcheck] at h
      cases h

/-- What has passed a check for blanks is not blank. -/
theorem trim_ne_of_check {text : String} {flaw : Flaw}
    (h : (if isBlankText text then .error flaw else .ok () : Except Flaw Unit) = .ok ()) :
    trim text ≠ "" := by
  split at h
  · cases h
  · next hblank => exact fun hempty => hblank (isBlankText_iff.mpr hempty)

end Operation

end VariantCatalog
