/-
# Settings that an environment gives

Four variables make the settings of a catalog, and each of them asks for something else: an
address that is there, two numbers of different widths, and a word.  Here it is said of the
texts of the variables, without a word on how they are read, which of them will do, and what is
reported of the first one that will not (`Settings.ofEnvironment_spec`).

Zero is two different things.  As the number of connections it is refused, and reported as `0`
however it was written; as the limit on variants it stands for no limit, and then a creation
of any size is carried out.
-/

import VariantCatalog.Operation.Perform
import VariantCatalog.Proofs.Request.Validation
import VariantCatalog.Proofs.Text.Numeral
import VariantCatalog.Settings

namespace VariantCatalog

open Text Expansion

/-! ## Numbers in texts -/

namespace Text

/-- A text writes a number: without the white space at its ends, it is a row of ASCII digits that
stand for the number, perhaps behind a plus sign. -/
def Writes (text : String) (number : Nat) : Prop :=
  ∃ digits, digits ≠ [] ∧ AreDigits digits ∧
    ((trim text).toList = digits ∨ (trim text).toList = '+' :: digits) ∧
      decimalValue digits = number

variable {range : IntegerRange} {text : String} {number : Nat}

theorem toList_trim (text : String) : (trim text).toList = trimChars text.toList :=
  String.toList_ofList

/-- A range without negative numbers has a plus sign only. -/
theorem eq_behindSign_or (hleast : range.least = 0) (chars : List Char) :
    range.isNegative chars = false ∧
      (chars = range.behindSign chars ∨ chars = '+' :: range.behindSign chars) := by
  have hsigned : ¬ range.least < 0 := by omega
  constructor
  · unfold IntegerRange.isNegative
    split
    · exact decide_eq_false hsigned
    · rfl
  · unfold IntegerRange.behindSign
    split
    · exact .inr rfl
    · exact .inl (if_neg hsigned).symm
    · exact .inl rfl

/-- The numbers that a text spells in a range without negative ones are those that it writes. -/
theorem spells_iff_writes (hleast : range.least = 0) :
    range.Spells (trim text).toList number ↔ Writes text number ∧ number ≤ range.greatest := by
  constructor
  · intro h
    obtain ⟨hsign, htext⟩ := eq_behindSign_or hleast (trim text).toList
    have hvalue := h.number_eq
    rw [hsign, signedValue, if_neg Bool.false_ne_true, Int.natCast_inj] at hvalue
    exact ⟨⟨_, h.ne_nil, h.areDigits, htext, hvalue.symm⟩, (holds_iff.mp h.holds).2⟩
  · rintro ⟨⟨digits, hne, hdigits, htext, rfl⟩, hgreatest⟩
    have hsplit : range.isNegative (trim text).toList = false ∧
        range.behindSign (trim text).toList = digits := by
      rcases htext with htext | htext <;> rw [htext]
      · exact sign_of_areDigits range hdigits
      · exact ⟨rfl, rfl⟩
    obtain ⟨hsign, hbehind⟩ := hsplit
    refine ⟨hbehind ▸ hne, hbehind ▸ hdigits, ?_, holds_iff.mpr ⟨by omega, hgreatest⟩⟩
    rw [hsign, hbehind, signedValue, if_neg Bool.false_ne_true]

theorem le_unsigned32_iff : number ≤ IntegerRange.unsigned32.greatest ↔ number ≤ 2 ^ 32 - 1 := by
  show (number : Int) ≤ 4294967295 ↔ _
  omega

theorem le_unsigned64_iff : number ≤ IntegerRange.unsigned64.greatest ↔ number ≤ 2 ^ 64 - 1 := by
  show (number : Int) ≤ 18446744073709551615 ↔ _
  omega

/-- A text that writes a number is read as that number by a range that holds it. -/
theorem Writes.readNumeral_eq (h : Writes text number) (hleast : range.least = 0)
    (hgreatest : number ≤ range.greatest) :
    readNumeral range (trim text).toList = .ok number := by
  have hzero : range.holds 0 := holds_iff.mpr ⟨by omega, by omega⟩
  exact (readNumeral_eq_ok_iff hzero).mpr ((spells_iff_writes hleast).mpr ⟨h, hgreatest⟩)

/-- A text that writes a number of a range has no problem with it. -/
theorem Writes.not_problem (h : Writes text number) (hleast : range.least = 0)
    (hgreatest : number ≤ range.greatest) {problem : NumeralError} :
    ¬ range.Problem (trim text).toList problem := by
  have hzero : range.holds 0 := holds_iff.mpr ⟨by omega, by omega⟩
  intro hproblem
  have hread := (readNumeral_eq_error_iff hzero).mpr hproblem
  rw [h.readNumeral_eq hleast hgreatest] at hread
  cases hread

/-- A text writes one number at most. -/
theorem Writes.unique {other : Nat} (h : Writes text number) (hother : Writes text other) :
    number = other := by
  -- Some range holds them both.
  have hread : ∀ {written : Nat}, Writes text written → written ≤ max number other →
      readNumeral ⟨0, (max number other : Nat)⟩ (trim text).toList = .ok written :=
    fun hwritten hle => hwritten.readNumeral_eq rfl (Int.ofNat_le.mpr hle)
  have heq := hread h (Nat.le_max_left _ _)
  rw [hread hother (Nat.le_max_right _ _)] at heq
  exact (Int.ofNat_inj.mp (Except.ok.inj heq)).symm

end Text

/-! ## Variables that will do -/

namespace Setting

open Settings

/-- All variables, in the order in which they are looked at. -/
def all : List Setting := [.databaseURL, .databaseConnections, .variantLimit, .logFormat]

/-- The range of a variable that is a number. -/
def range? : Setting → Option IntegerRange
  | .databaseConnections => some .unsigned32
  | .variantLimit => some .unsigned64
  | _ => none

variable (environment : Environment)

/-- A variable gives a number: the one that its text writes, or the default if it is not set. -/
def Gives (setting : Setting) (default number : Nat) : Prop :=
  match environment setting.name with
  | none => number = default
  | some text => Writes text number

variable {environment} in
theorem Gives.writes {setting : Setting} {default number : Nat} {text : String}
    (h : Gives environment setting default number) (htext : environment setting.name = some text) :
    Writes text number := by
  rwa [Gives, htext] at h

/-- Whether a variable will do as it is set, or may stay unset. -/
def Admits : Setting → Prop
  | .databaseURL => ∃ url, environment Setting.databaseURL.name = some url ∧ url ≠ ""
  | .databaseConnections => ∀ text, environment Setting.databaseConnections.name = some text →
    ∃ count, Writes text count ∧ 1 ≤ count ∧ count ≤ 2 ^ 32 - 1
  | .variantLimit => ∀ text, environment Setting.variantLimit.name = some text →
    ∃ limit, Writes text limit ∧ limit ≤ 2 ^ 64 - 1
  | .logFormat => ∀ text, environment Setting.logFormat.name = some text →
    lowercaseASCII (trim text) = "json" ∨ lowercaseASCII (trim text) = "pretty"

/-- What is reported of a variable that will not do. -/
inductive Reports : Setting → SettingsError → Prop
  | missing (h : ∀ url, environment Setting.databaseURL.name = some url → url = "") :
      Reports .databaseURL (.missing .databaseURL)
  | notNumeral {setting : Setting} {range : IntegerRange} {text : String} {problem : NumeralError}
      (hrange : setting.range? = some range) (htext : environment setting.name = some text)
      (hproblem : range.Problem (trim text).toList problem) :
      Reports setting (.invalid setting text (.notNumeral problem))
  | noConnection {text : String} (htext : environment Setting.databaseConnections.name = some text)
      (hzero : Writes text 0) :
      Reports .databaseConnections (.invalid .databaseConnections "0" .noConnection)
  | unknownFormat {text : String} (htext : environment Setting.logFormat.name = some text)
      (hjson : lowercaseASCII (trim text) ≠ "json")
      (hpretty : lowercaseASCII (trim text) ≠ "pretty") :
      Reports .logFormat
        (.invalid .logFormat text (.unknownFormat ⟨lowercaseASCII (trim text)⟩))

variable {environment}

/-- A variable that is reported will not do. -/
theorem Reports.not_admits {setting : Setting} {error : SettingsError}
    (h : Reports environment setting error) : ¬ setting.Admits environment := by
  intro hadmits
  cases h with
  | missing h =>
      obtain ⟨url, hurl, hne⟩ := hadmits
      exact hne (h url hurl)
  | @notNumeral _ range text problem hrange htext hproblem =>
      cases setting with
      | databaseURL => cases hrange
      | databaseConnections =>
          cases hrange
          obtain ⟨count, hwrites, _, hcount⟩ := hadmits text htext
          exact hwrites.not_problem rfl (le_unsigned32_iff.mpr hcount) hproblem
      | variantLimit =>
          cases hrange
          obtain ⟨limit, hwrites, hlimit⟩ := hadmits text htext
          exact hwrites.not_problem rfl (le_unsigned64_iff.mpr hlimit) hproblem
      | logFormat => cases hrange
  | noConnection htext hzero =>
      obtain ⟨count, hwrites, hpos, _⟩ := hadmits _ htext
      rw [hwrites.unique hzero] at hpos
      exact absurd hpos (by decide)
  | unknownFormat htext hjson hpretty => exact (hadmits _ htext).elim hjson hpretty

end Setting

/-! ## Reading the variables -/

namespace Settings

open Setting

variable (environment : Environment)

theorem readDatabaseURL_cases :
    (∃ url, readDatabaseURL environment = .ok url ∧
      environment Setting.databaseURL.name = some url ∧ url ≠ "") ∨
    ∃ error, readDatabaseURL environment = .error error ∧
      Reports environment .databaseURL error := by
  rw [readDatabaseURL]
  split
  · next hnone => exact .inr ⟨_, rfl, .missing (by simp [hnone])⟩
  · next url hurl =>
    split
    · next hempty =>
      refine .inr ⟨_, rfl, .missing fun other hother => ?_⟩
      rw [hurl] at hother
      exact Option.some.inj hother ▸ String.isEmpty_iff.mp hempty
    · next hempty => exact .inl ⟨url, rfl, hurl, fun hnil => hempty (String.isEmpty_iff.mpr hnil)⟩

/-- A number is read as it is written, or the problem with its text is reported. -/
theorem readCount_cases {setting : Setting} {range : IntegerRange} {default : Nat}
    (hrange : setting.range? = some range) (hleast : range.least = 0)
    (hdefault : default ≤ range.greatest) :
    (∃ count, readCount environment setting range default = .ok count ∧
      Gives environment setting default count ∧ count ≤ range.greatest) ∨
    ∃ error, readCount environment setting range default = .error error ∧
      Reports environment setting error := by
  have hzero : range.holds 0 := holds_iff.mpr ⟨by omega, by omega⟩
  rw [readCount]
  cases htext : environment setting.name with
  | none =>
      refine .inl ⟨default, rfl, ?_, hdefault⟩
      rw [Gives, htext]
  | some text =>
      dsimp only
      rw [← toList_trim]
      cases hread : readNumeral range (trim text).toList with
      | error problem =>
          exact .inr ⟨_, rfl, .notNumeral hrange htext
            ((readNumeral_eq_error_iff hzero).mp hread)⟩
      | ok number =>
          have hspells := (readNumeral_eq_ok_iff hzero).mp hread
          obtain ⟨count, rfl⟩ := Int.eq_ofNat_of_zero_le
            (hleast ▸ (holds_iff.mp hspells.holds).1)
          obtain ⟨hwrites, hgreatest⟩ := (spells_iff_writes hleast).mp hspells
          refine .inl ⟨count, rfl, ?_, hgreatest⟩
          rw [Gives, htext]
          exact hwrites

/-- The size of the pool is a number that is not zero. -/
theorem readConnections_cases :
    (∃ count, readConnections environment = .ok count ∧
      Gives environment .databaseConnections defaultConnections count ∧
        1 ≤ count ∧ count ≤ 2 ^ 32 - 1) ∨
    ∃ error, readConnections environment = .error error ∧
      Reports environment .databaseConnections error := by
  have hdefault : (defaultConnections : Int) ≤ IntegerRange.unsigned32.greatest := by decide
  have hrange : Setting.databaseConnections.range? = some .unsigned32 := rfl
  rw [readConnections]
  rcases readCount_cases environment hrange rfl hdefault with
    ⟨count, hread, hgives, hcount⟩ | ⟨error, hread, hreports⟩
  · rw [hread]
    cases count with
    | zero =>
        rw [Gives] at hgives
        cases htext : environment Setting.databaseConnections.name with
        | none =>
            rw [htext] at hgives
            cases hgives
        | some text =>
            rw [htext] at hgives
            exact .inr ⟨_, rfl, .noConnection htext hgives⟩
    | succ count =>
        exact .inl ⟨count + 1, rfl, hgives, Nat.succ_pos count, le_unsigned32_iff.mp hcount⟩
  · rw [hread]
    exact .inr ⟨error, rfl, hreports⟩

theorem readLimit_cases :
    (∃ limit, readCount environment .variantLimit .unsigned64 defaultVariantLimit = .ok limit ∧
      Gives environment .variantLimit defaultVariantLimit limit ∧ limit ≤ 2 ^ 64 - 1) ∨
    ∃ error, readCount environment .variantLimit .unsigned64 defaultVariantLimit = .error error ∧
      Reports environment .variantLimit error := by
  have hdefault : (defaultVariantLimit : Int) ≤ IntegerRange.unsigned64.greatest := by decide
  have hrange : Setting.variantLimit.range? = some .unsigned64 := rfl
  rcases readCount_cases environment hrange rfl hdefault with
    ⟨limit, hread, hgives, hlimit⟩ | hreported
  · exact .inl ⟨limit, hread, hgives, le_unsigned64_iff.mp hlimit⟩
  · exact .inr hreported

/-- A format is what its word says, whatever the case of its letters. -/
def Formats (format : LogFormat) : Prop :=
  match environment Setting.logFormat.name with
  | none => format = .json
  | some text => lowercaseASCII (trim text) = "json" ∧ format = .json ∨
    lowercaseASCII (trim text) = "pretty" ∧ format = .pretty

theorem readLogFormat_cases :
    (∃ format, readLogFormat environment = .ok format ∧ Formats environment format) ∨
    ∃ error, readLogFormat environment = .error error ∧
      Reports environment .logFormat error := by
  rw [readLogFormat]
  cases htext : environment Setting.logFormat.name with
  | none =>
      refine .inl ⟨.json, rfl, ?_⟩
      rw [Formats, htext]
  | some text =>
      dsimp only
      rw [LogFormat.ofText]
      by_cases hjson : lowercaseASCII (trim text) = "json"
      · rw [if_pos hjson]
        refine .inl ⟨.json, rfl, ?_⟩
        rw [Formats, htext]
        exact .inl ⟨hjson, rfl⟩
      rw [if_neg hjson]
      by_cases hpretty : lowercaseASCII (trim text) = "pretty"
      · rw [if_pos hpretty]
        refine .inl ⟨.pretty, rfl, ?_⟩
        rw [Formats, htext]
        exact .inr ⟨hpretty, rfl⟩
      · rw [if_neg hpretty]
        exact .inr ⟨_, rfl, .unknownFormat htext hjson hpretty⟩

/-- Settings are what an environment says, with the defaults for what it does not say. The limit
on variants is what is written there, of which zero stands for no limit. -/
structure Fits (settings : Settings) (limit : Nat) : Prop where
  databaseURL : environment Setting.databaseURL.name = some settings.databaseURL
  databaseConnections :
    Gives environment .databaseConnections defaultConnections settings.databaseConnections
  written : Gives environment .variantLimit defaultVariantLimit limit
  variantLimit : settings.variantLimit = if limit = 0 then none else some limit
  logFormat : Formats environment settings.logFormat

end Settings

/-! ## What is committed under a limit -/

/-- A limit allows a creation that is well-formed and makes no more variants than it says. Zero
is no limit. -/
def Creation.IsAllowed (creation : Creation) (limit : Nat) : Prop :=
  creation.WellFormed ∧ (limit = 0 ∨ creation.variantCount ≤ limit)

/-- Under some bound, whatever the store, the creations that a limit allows are carried out, and
all others are refused as invalid before the store is asked for anything. -/
structure Operation.CommitsWithin (bound : Option Nat) (limit : Nat) : Prop where
  carriesOut {creation : Creation} (h : creation.IsAllowed limit) {σ τ : Type}
    (store : Store σ τ) (state : σ) :
      store.perform bound (.commit creation) state =
        store.transact (Operation.commit creation).body state
  refuses {creation : Creation} (h : ¬ creation.IsAllowed limit) :
    ∃ flaw, creation.Has bound flaw ∧ ∀ {σ τ : Type} (store : Store σ τ) (state : σ),
      store.perform bound (.commit creation) state = (.error (.validation flaw.message), state)

namespace Operation

theorem isAllowed_iff {creation : Creation} {limit : Nat} :
    creation.IsAllowed limit ↔ creation.WellFormed ∧
      ∀ most ∈ (if limit = 0 then none else some limit), creation.variantCount ≤ most := by
  rw [Creation.IsAllowed]
  by_cases hzero : limit = 0
  · simp [hzero]
  · simp [hzero]

theorem commitsWithin {limit : Nat} (hlimit : limit < countBound) :
    CommitsWithin (if limit = 0 then none else some limit) limit := by
  have hbound : ∀ most ∈ (if limit = 0 then none else some limit), most < countBound := by
    intro most hmost
    split at hmost
    · cases hmost
    · cases hmost
      exact hlimit
  refine ⟨fun {creation} h σ τ store state => ?_, fun {creation} h => ?_⟩
  · rcases Creation.validate_creation_cases creation _ with ⟨hok, _⟩ | ⟨flaw, _, hhas⟩
    · have hscreen : (commit creation).screen _ = .ok () := congrArg (Except.mapError _) hok
      rw [Store.perform, hscreen]
      rfl
    · exact absurd (isAllowed_iff.mp h) (hhas.not_wellFormed hbound)
  · rcases Creation.validate_creation_cases creation _ with ⟨_, hgood⟩ | ⟨flaw, hflaw, hhas⟩
    · exact absurd (isAllowed_iff.mpr hgood) h
    · refine ⟨flaw, hhas, fun store state => ?_⟩
      have hscreen : (commit creation).screen _ = .error (.validation flaw.message) :=
        congrArg (Except.mapError _) hflaw
      rw [Store.perform, hscreen]

end Operation

namespace Settings

open Setting

/-- A word that is read names a format. -/
theorem Formats.admits {environment : Environment} {format : LogFormat}
    (h : Formats environment format) : Setting.logFormat.Admits environment := by
  intro text htext
  rw [Formats, htext] at h
  exact h.imp And.left And.left

/-- **An environment makes settings just if all of its variables will do**, and then they are what
it says, and creations are committed within the limit that is written there. Otherwise the first
variable that will not do is reported, as missing if it is the address and as invalid if not. -/
theorem ofEnvironment_spec (environment : Environment) :
    match ofEnvironment environment with
    | .ok settings => (∀ setting : Setting, setting.Admits environment) ∧
      ∃ limit, settings.Fits environment limit ∧
        (settings.variantLimit = none ↔ limit = 0) ∧
          Operation.CommitsWithin settings.variantLimit limit
    | .error error => ∃ before setting after, Setting.all = before ++ setting :: after ∧
      (∀ earlier ∈ before, earlier.Admits environment) ∧ ¬ setting.Admits environment ∧
        Reports environment setting error := by
  -- Each variable is read after those before it, and only if they all will do.
  rcases readDatabaseURL_cases environment with ⟨url, hurl, hset, hne⟩ | ⟨error, hurl, hreports⟩
  case inr =>
    have hread : ofEnvironment environment = .error error := by
      rw [ofEnvironment, hurl]
      rfl
    rw [hread]
    exact ⟨[], _, _, rfl, nofun, hreports.not_admits, hreports⟩
  have hfirst : Setting.databaseURL.Admits environment := ⟨url, hset, hne⟩
  rcases readConnections_cases environment with
    ⟨count, hcount, hgives, hpos, hmost⟩ | ⟨error, hcount, hreports⟩
  case inr =>
    have hread : ofEnvironment environment = .error error := by
      rw [ofEnvironment, hurl, hcount]
      rfl
    rw [hread]
    exact ⟨[_], _, _, rfl, by simpa using hfirst, hreports.not_admits, hreports⟩
  have hsecond : Setting.databaseConnections.Admits environment :=
    fun text htext => ⟨count, hgives.writes htext, hpos, hmost⟩
  rcases readLimit_cases environment with
    ⟨limit, hlimit, hwritten, hgreatest⟩ | ⟨error, hlimit, hreports⟩
  case inr =>
    have hread : ofEnvironment environment = .error error := by
      rw [ofEnvironment, hurl, hcount, hlimit]
      rfl
    rw [hread]
    exact ⟨[_, _], _, _, rfl, by simpa using ⟨hfirst, hsecond⟩, hreports.not_admits, hreports⟩
  have hthird : Setting.variantLimit.Admits environment :=
    fun text htext => ⟨limit, hwritten.writes htext, hgreatest⟩
  rcases readLogFormat_cases environment with ⟨format, hformat, hnames⟩ | ⟨error, hformat, hreports⟩
  case inr =>
    have hread : ofEnvironment environment = .error error := by
      rw [ofEnvironment, hurl, hcount, hlimit, hformat]
      rfl
    rw [hread]
    exact ⟨[_, _, _], _, _, rfl, by simpa using ⟨hfirst, hsecond, hthird⟩, hreports.not_admits,
      hreports⟩
  have hread : ofEnvironment environment =
      .ok ⟨url, count, if limit = 0 then none else some limit, format⟩ := by
    rw [ofEnvironment, hurl, hcount, hlimit, hformat]
    rfl
  rw [hread]
  refine ⟨fun setting => ?_, limit, ⟨hset, hgives, hwritten, rfl, hnames⟩, by simp, ?_⟩
  · cases setting with
    | databaseURL => exact hfirst
    | databaseConnections => exact hsecond
    | variantLimit => exact hthird
    | logFormat => exact hnames.admits
  · apply Operation.commitsWithin
    exact Nat.lt_of_le_of_lt hgreatest (by decide)

/-- No connections are reported as the number that they are, not as the text. -/
example :
    ofEnvironment (fun name =>
      if name = "DATABASE_URL" then some "db"
      else if name = "FORGECART_DB_MAX_CONNECTIONS" then some " +00 " else none) =
        .error (.invalid .databaseConnections "0" .noConnection) := rfl

end Settings

end VariantCatalog
