import SafeMigrate.DataTypes
import SafeMigrate.FixedPoint

/-! What a column of a declared type can hold, and when changing the type can lose it. -/

namespace SafeMigrate

/-- A value, as far as the limits of a type are about it. -/
inductive StoredValue
  | integer (n : ℤ)
  | decimal (q : ℚ)
  | notANumber
  | infinity (negative : Bool)
  | characters (length : ℕ)

/-- The bits of the integer types. -/
def integerWidth : List (String × ℕ) := [("int2", 16), ("int4", 32), ("int8", 64)]

/-- A `numeric` without precision: 131072 places before the point and 16383 behind it. -/
def unboundedDecimals : Set ℚ := FixedPoint.values 10 (131072 + 16383) 16383

/-- What the built-in catalogue of a server says. -/
structure BuiltinTypeCatalogue.IsServer (catalogue : BuiltinTypeCatalogue) : Prop where
  widths : ∀ entry ∈ catalogue.types, ∀ bits,
    integerWidth.lookup entry.typname = some bits → entry.fixedBits = some (bits : ℤ)
  strings : ∀ entry ∈ catalogue.types, entry.isTextLike = true →
    entry.fixedBits = none ∧ entry.isExactNumeric = false
  /-- `format_type` names one type. -/
  canonicals : ∀ entry ∈ catalogue.types, ∀ other ∈ catalogue.types,
    entry.canonical = other.canonical → entry.typname = other.typname

namespace ParsedDataType

variable {catalogue : BuiltinTypeCatalogue}

def bits (t : ParsedDataType catalogue) : Option ℕ :=
  t.builtin.bind fun b => integerWidth.lookup b.typname

/-- The values a column of the type takes unchanged; one element of an array. -/
def values (t : ParsedDataType catalogue) : Set StoredValue
  | .integer n => ∃ bits, t.bits = some bits ∧ -2 ^ (bits - 1) ≤ n ∧ n < 2 ^ (bits - 1)
  | .decimal q => t.isExactNumeric = true ∧
    match t.numericParams with
    | some (precision, scale) => q ∈ FixedPoint.values 10 precision.toNat scale
    | none => q ∈ unboundedDecimals
  | .notANumber => t.isExactNumeric = true
  | .infinity _ => t.isExactNumeric = true ∧ t.numericParams = none
  | .characters length => t.isTextLike = true ∧ ∀ limit ∈ t.characterLimit, length ≤ limit

/-- Both integer types, both `numeric`, or both text-like. -/
def SameFamily (old new : ParsedDataType catalogue) : Prop :=
  (old.bits.isSome ∧ new.bits.isSome) ∨ (old.isExactNumeric ∧ new.isExactNumeric) ∨
    (old.isTextLike ∧ new.isTextLike)

/-- A pair of declarations that the server accepts. -/
structure Comparable (old new : ParsedDataType catalogue) : Prop where
  accepted : old.isValidDeclaration = true
  acceptedNew : new.isValidDeclaration = true
  family : SameFamily old new
  dimensions : old.arrayDimensions = new.arrayDimensions

@[simp] theorem mem_values_integer {t : ParsedDataType catalogue} {n : ℤ} :
    .integer n ∈ t.values ↔
      ∃ bits, t.bits = some bits ∧ -2 ^ (bits - 1) ≤ n ∧ n < 2 ^ (bits - 1) := Iff.rfl

@[simp] theorem mem_values_notANumber {t : ParsedDataType catalogue} :
    .notANumber ∈ t.values ↔ t.isExactNumeric = true := Iff.rfl

@[simp] theorem mem_values_infinity {t : ParsedDataType catalogue} {negative : Bool} :
    .infinity negative ∈ t.values ↔ t.isExactNumeric = true ∧ t.numericParams = none := Iff.rfl

@[simp] theorem mem_values_characters {t : ParsedDataType catalogue} {length : ℕ} :
    .characters length ∈ t.values ↔
      t.isTextLike = true ∧ ∀ limit ∈ t.characterLimit, length ≤ limit := Iff.rfl

/-- As many digits and more of them behind the point leave fewer before it. -/
def LosesPlaces (old new : ParsedDataType catalogue) : Prop :=
  ∃ p s p' s', old.numericParams = some (p, s) ∧ new.numericParams = some (p', s') ∧
    p ≤ p' ∧ s ≤ s' ∧ p' - s' < p - s

/-- One built-in without a modifier, where only the new spelling stands for a length of one. -/
def TakesImplicitLength (old new : ParsedDataType catalogue) : Prop :=
  old.isTextLike = true ∧ old.canonicalName = new.canonicalName ∧ old.rawTypmods = none ∧
    new.rawTypmods = none ∧ old.characterLimit = none ∧ new.characterLimit ≠ none

section Readings

variable {old new : ParsedDataType catalogue} {b b' : BuiltinType}

theorem builtin_mem (h : old.builtin = some b) : b ∈ catalogue.types := by
  obtain ⟨written, hbuiltin, -⟩ := old.parsed
  exact BuiltinTypeCatalogue.mem_of_resolve (hbuiltin.symm.trans h)

/-- A written modifier means the same for every spelling of the type. -/
theorem classifyTypmod_some (hname : b.typname = b'.typname) (written written' raw : String) :
    classifyTypmod (some b) written (some raw) = classifyTypmod (some b') written' (some raw) := by
  simp only [classifyTypmod, hname]
  cases typmodKind b'.typname <;> rfl

/-- Without one, two spellings differ at most by the length of one. -/
theorem classifyTypmod_none (hname : b.typname = b'.typname) (written written' : String) :
    classifyTypmod (some b) written none = classifyTypmod (some b') written' none ∨
      ∀ w, classifyTypmod (some b) w none = .unbounded ∨
        classifyTypmod (some b) w none = .characterLength .implicit := by
  have hlength (w : String) : classifyLength b'.typname w none = .unbounded ∨
      classifyLength b'.typname w none = .characterLength .implicit := by
    by_cases h : (b'.typname = "bpchar" ∨ b'.typname = "bit") ∧ w ∈ implicitLengthOne
    · exact Or.inr (if_pos h)
    · exact Or.inl (if_neg h)
  simp only [classifyTypmod, hname]
  cases typmodKind b'.typname with
  | characterLength => exact Or.inr hlength
  | bitLength => exact Or.inr hlength
  | _ => exact Or.inl rfl

/-- Two declarations that look alike have the same modifier, unless it is implied. -/
theorem typmod_of_alike (h : old.builtin = some b) (h' : new.builtin = some b')
    (hname : b.typname = b'.typname) (hraw : old.rawTypmods = new.rawTypmods) :
    old.typmod = new.typmod ∨ old.rawTypmods = none ∧
      (old.typmod = .unbounded ∨ old.typmod = .characterLength .implicit) ∧
      (new.typmod = .unbounded ∨ new.typmod = .characterLength .implicit) := by
  obtain ⟨written, -, htypmod⟩ := old.parsed
  obtain ⟨written', -, htypmod'⟩ := new.parsed
  rw [htypmod, htypmod', h, h', ← hraw]
  cases old.rawTypmods with
  | some raw => exact Or.inl (classifyTypmod_some hname _ _ _)
  | none =>
    rcases classifyTypmod_none hname written written' with heq | himplied
    · exact Or.inl heq
    · rcases classifyTypmod_none hname.symm written' written with heq | himplied'
      · exact Or.inl heq.symm
      · exact Or.inr ⟨rfl, himplied _, himplied' _⟩

/-- Text, integers and decimals are three kinds of types. -/
theorem family_apart (hserver : catalogue.IsServer) (h : old.builtin = some b) :
    (b.isTextLike = true → old.bits = none ∧ old.fixedBits = none ∧ old.isExactNumeric = false) ∧
      (b.isExactNumeric = true → old.bits = none ∧ old.isTextLike = false) ∧
      ∀ width, old.bits = some width →
        old.fixedBits = some (width : ℤ) ∧ old.isExactNumeric = false ∧ old.isTextLike = false := by
  have hmem := builtin_mem h
  have hbits : old.bits = integerWidth.lookup b.typname := by simp [bits, h]
  have hfixed : old.fixedBits = b.fixedBits := by simp [fixedBits, h]
  have htext : old.isTextLike = b.isTextLike := by simp [isTextLike, h]
  have hnumeric : old.isExactNumeric = b.isExactNumeric := by simp [isExactNumeric, h]
  have hdecimal (hexact : b.isExactNumeric = true) : old.bits = none := by
    rw [hbits, of_decide_eq_true hexact]
    decide
  rw [hfixed, htext, hnumeric]
  refine ⟨fun hlike => ?_, fun hexact => ⟨hdecimal hexact, ?_⟩, fun width hwidth => ?_⟩
  · obtain ⟨hnone, hexact⟩ := hserver.strings b hmem hlike
    refine ⟨?_, hnone, hexact⟩
    cases hold : old.bits with
    | none => rfl
    | some width =>
      rw [hserver.widths b hmem width (hbits.symm.trans hold)] at hnone
      cases hnone
  · by_contra hlike
    rw [(hserver.strings b hmem (Bool.eq_true_of_not_eq_false hlike)).2] at hexact
    cases hexact
  · have hsome := hserver.widths b hmem width (hbits.symm.trans hwidth)
    refine ⟨hsome, Bool.eq_false_iff.mpr fun hexact => ?_, Bool.eq_false_iff.mpr fun hlike => ?_⟩
    · rw [hdecimal hexact] at hwidth
      cases hwidth
    · rw [(hserver.strings b hmem hlike).1] at hsome
      cases hsome

end Readings

section Lossy

variable {old new : ParsedDataType catalogue}

/-- Declarations that are told apart by nothing the change looks at first. -/
abbrev Alike (old new : ParsedDataType catalogue) : Prop :=
  old.isBuiltin ∧ new.isBuiltin ∧ old.canonicalName = new.canonicalName ∧
    old.rawTypmods = new.rawTypmods ∧ old.arrayDimensions = new.arrayDimensions

theorem isLossyNarrowingTo_of_alike (h : Alike old new) : old.isLossyNarrowingTo new = false :=
  if_pos h

end Lossy

section Integers

theorem two_pow_range_iff {m n : ℕ} : (∀ z : ℤ, -2 ^ m ≤ z ∧ z < 2 ^ m → -2 ^ n ≤ z ∧ z < 2 ^ n) ↔
    m ≤ n := by
  constructor
  · intro h
    by_contra hlt
    have hpow : (2 : ℤ) ^ n < 2 ^ m := pow_lt_pow_right₀ (by omega) (by omega)
    have hpositive : (0 : ℤ) < 2 ^ n := pow_pos (by omega) n
    have hbeyond := h (2 ^ n) ⟨by omega, hpow⟩
    omega
  · intro hle z hz
    have hpow : (2 : ℤ) ^ m ≤ 2 ^ n := pow_le_pow_right₀ (by omega) hle
    omega

variable {old new : ParsedDataType catalogue} {width width' : ℕ}

theorem width_positive (h : old.bits = some width) : 0 < width := by
  cases hold : old.builtin with
  | none => simp [bits, hold] at h
  | some b =>
    simp only [bits, hold, Option.bind_some, integerWidth, List.lookup_cons, List.lookup_nil] at h
    grind

theorem integer_values_subset_iff (hserver : catalogue.IsServer) (h : old.bits = some width)
    (h' : new.bits = some width') : old.values ⊆ new.values ↔ width ≤ width' := by
  have hpositive := width_positive h
  have hpositive' := width_positive h'
  have hrange : width ≤ width' ↔ width - 1 ≤ width' - 1 := by omega
  rw [hrange, ← two_pow_range_iff]
  constructor
  · intro hsubset z hz
    obtain ⟨found, hfound, hin⟩ : StoredValue.integer z ∈ new.values := hsubset ⟨width, h, hz⟩
    cases hfound.symm.trans h'
    exact hin
  · cases hold : old.builtin with
    | none => simp [bits, hold] at h
    | some b =>
      obtain ⟨-, hexact, hlike⟩ := (family_apart hserver hold).2.2 width h
      intro hall value hvalue
      cases value with
      | integer z =>
        obtain ⟨found, hfound, hin⟩ := hvalue
        cases hfound.symm.trans h
        exact ⟨width', h', hall z hin⟩
      | decimal q => exact absurd hvalue.1 (by simp [hexact])
      | notANumber => exact absurd hvalue (by simp [hexact])
      | infinity negative => exact absurd hvalue.1 (by simp [hexact])
      | characters length => exact absurd hvalue.1 (by simp [hlike])

theorem integer_lossy_iff (hserver : catalogue.IsServer) (h : old.bits = some width)
    (h' : new.bits = some width') (hdims : old.arrayDimensions = new.arrayDimensions) :
    old.isLossyNarrowingTo new = false ↔ width ≤ width' := by
  cases hold : old.builtin with
  | none => simp [bits, hold] at h
  | some b =>
    cases hnew : new.builtin with
    | none => simp [bits, hnew] at h'
    | some b' =>
      obtain ⟨hfixed, hexact, -⟩ := (family_apart hserver hold).2.2 width h
      obtain ⟨hfixed', -, -⟩ := (family_apart hserver hnew).2.2 width' h'
      have hcanonical : old.canonicalName = new.canonicalName → width = width' := by
        intro heq
        have hname := hserver.canonicals b (builtin_mem hold) b' (builtin_mem hnew)
          (by simpa [canonicalName, hold, hnew] using heq)
        simp only [bits, hold, hnew, Option.bind_some, hname] at h h'
        exact Option.some.inj (h.symm.trans h')
      by_cases halike : Alike old new
      · rw [isLossyNarrowingTo_of_alike halike]
        exact iff_of_true rfl (hcanonical halike.2.2.1).le
      · rw [isLossyNarrowingTo, if_neg halike, if_neg (not_not.mpr hdims),
          if_neg (by simp [hexact]), hfixed, hfixed']
        simp

end Integers

section Decimals

variable {old new : ParsedDataType catalogue}

theorem numeric_typmod (h : old.isExactNumeric = true) :
    old.typmod = classifyNumeric old.rawTypmods := by
  obtain ⟨written, -, htypmod⟩ := old.parsed
  cases hold : old.builtin with
  | none => simp [isExactNumeric, hold] at h
  | some b =>
    have hname : b.typname = "numeric" := by
      simpa [isExactNumeric, hold, BuiltinType.isExactNumeric] using h
    rw [htypmod, hold]
    simp only [classifyTypmod, hname]
    rfl

theorem numericParams_accepted {p s : Int} (h : old.numericParams = some (p, s)) :
    1 ≤ p ∧ p ≤ 1000 ∧ -1000 ≤ s ∧ s ≤ 1000 := by
  unfold numericParams at h
  split at h
  · next precision scale htypmod =>
    cases h
    obtain ⟨hlow, hhigh⟩ := precision.accepted
    cases scale with
    | none => exact ⟨hlow, hhigh, by decide, by decide⟩
    | some scale => exact ⟨hlow, hhigh, scale.accepted⟩
  · cases h

theorem digits_subset_iff {p s p' s' : Int} (h : old.numericParams = some (p, s))
    (h' : new.numericParams = some (p', s')) :
    FixedPoint.values 10 p.toNat s ⊆ FixedPoint.values 10 p'.toNat s' ↔
      s ≤ s' ∧ p - s ≤ p' - s' := by
  have hp := numericParams_accepted h
  have hp' := numericParams_accepted h'
  rw [FixedPoint.values_subset_iff (by omega) (by omega), Int.toNat_of_nonneg (by omega),
    Int.toNat_of_nonneg (by omega)]

theorem digits_subset_unbounded {p s : Int} (h : old.numericParams = some (p, s)) :
    FixedPoint.values 10 p.toNat s ⊆ unboundedDecimals := by
  have hp := numericParams_accepted h
  refine (FixedPoint.values_subset_iff (by omega) (by omega)).mpr ?_
  omega

theorem numeric_values (hserver : catalogue.IsServer) (h : old.isExactNumeric = true)
    {value : StoredValue} (hvalue : value ∈ old.values) :
    (∃ q, value = .decimal q) ∨ value = .notANumber ∨ ∃ negative, value = .infinity negative := by
  cases hold : old.builtin with
  | none => simp [isExactNumeric, hold] at h
  | some b =>
    obtain ⟨hbits, hlike⟩ := (family_apart hserver hold).2.1 (by simpa [isExactNumeric, hold] using h)
    cases value with
    | decimal q => exact Or.inl ⟨q, rfl⟩
    | notANumber => exact Or.inr (Or.inl rfl)
    | infinity negative => exact Or.inr (Or.inr ⟨negative, rfl⟩)
    | integer z => simp [hbits] at hvalue
    | characters length => simp [hlike] at hvalue

theorem numeric_values_subset_iff (hserver : catalogue.IsServer) (h : old.isExactNumeric = true)
    (h' : new.isExactNumeric = true) : old.values ⊆ new.values ↔
      ∀ p' s', new.numericParams = some (p', s') →
        ∃ p s, old.numericParams = some (p, s) ∧ s ≤ s' ∧ p - s ≤ p' - s' := by
  constructor
  · intro hsubset p' s' hnew
    cases hold : old.numericParams with
    | none =>
      have hinfinity : StoredValue.infinity false ∈ new.values := hsubset (by simp [h, hold])
      simp [hnew] at hinfinity
    | some params =>
      obtain ⟨p, s⟩ := params
      refine ⟨p, s, rfl, (digits_subset_iff hold hnew).mp fun q hq => ?_⟩
      have hdecimal : StoredValue.decimal q ∈ new.values :=
        hsubset (a := .decimal q) ⟨h, by rw [hold]; exact hq⟩
      have hin := hdecimal.2
      rw [hnew] at hin
      exact hin
  · intro hdigits value hvalue
    rcases numeric_values hserver h hvalue with ⟨q, rfl⟩ | rfl | ⟨negative, rfl⟩
    · refine ⟨h', ?_⟩
      have hq := hvalue.2
      cases hnew : new.numericParams with
      | none =>
        cases hold : old.numericParams with
        | none =>
          rw [hold] at hq
          exact hq
        | some params =>
          rw [hold] at hq
          exact digits_subset_unbounded hold hq
      | some params' =>
        obtain ⟨p, s, hold, hfits⟩ := hdigits params'.1 params'.2 hnew
        rw [hold] at hq
        exact (digits_subset_iff hold hnew).mpr hfits hq
    · exact h'
    · refine mem_values_infinity.mpr ⟨h', ?_⟩
      cases hnew : new.numericParams with
      | none => rfl
      | some params' =>
        obtain ⟨p, s, hold, -⟩ := hdigits params'.1 params'.2 hnew
        rw [(mem_values_infinity.mp hvalue).2] at hold
        cases hold

theorem numeric_lossy_iff (h : old.isExactNumeric = true) (h' : new.isExactNumeric = true)
    (hdims : old.arrayDimensions = new.arrayDimensions) :
    old.isLossyNarrowingTo new = false ↔
      ∀ p' s', new.numericParams = some (p', s') →
        ∃ p s, old.numericParams = some (p, s) ∧ p ≤ p' ∧ s ≤ s' := by
  by_cases halike : Alike old new
  · refine iff_of_true (isLossyNarrowingTo_of_alike halike) fun p' s' hnew => ⟨p', s', ?_, by simp⟩
    have htypmod : old.typmod = new.typmod := by
      rw [numeric_typmod h, numeric_typmod h', halike.2.2.2.1]
    unfold numericParams at hnew ⊢
    rw [htypmod]
    exact hnew
  · rw [isLossyNarrowingTo, if_neg halike, if_neg (not_not.mpr hdims), if_pos ⟨h, h'⟩]
    cases old.numericParams with
    | none =>
      cases new.numericParams with
      | none => simp
      | some params' =>
        obtain ⟨p', s'⟩ := params'
        simp
    | some params =>
      cases new.numericParams with
      | none => simp
      | some params' =>
        obtain ⟨p, s⟩ := params
        obtain ⟨p', s'⟩ := params'
        simp

end Decimals

section Text

variable {old new : ParsedDataType catalogue}

theorem characterLimit_positive {limit : Int} (h : old.characterLimit = some limit) : 1 ≤ limit := by
  unfold characterLimit at h
  split at h
  · next length htypmod =>
    cases h
    exact length.accepted.1
  · cases h

theorem text_values (hserver : catalogue.IsServer) (h : old.isTextLike = true)
    {value : StoredValue} (hvalue : value ∈ old.values) :
    ∃ length, value = .characters length := by
  cases hold : old.builtin with
  | none => simp [isTextLike, hold] at h
  | some b =>
    obtain ⟨hbits, -, hexact⟩ := (family_apart hserver hold).1 (by simpa [isTextLike, hold] using h)
    cases value with
    | characters length => exact ⟨length, rfl⟩
    | decimal q => exact absurd hvalue.1 (by simp [hexact])
    | notANumber => simp [hexact] at hvalue
    | infinity negative => simp [hexact] at hvalue
    | integer z => simp [hbits] at hvalue

theorem text_values_subset_iff (hserver : catalogue.IsServer) (h : old.isTextLike = true)
    (h' : new.isTextLike = true) : old.values ⊆ new.values ↔
      ∀ limit' ∈ new.characterLimit, ∃ limit ∈ old.characterLimit, limit ≤ limit' := by
  constructor
  · intro hsubset limit' hnew
    have hpositive' := characterLimit_positive hnew
    cases hold : old.characterLimit with
    | none =>
      -- a text of one more character than the new limit
      have htext : StoredValue.characters (limit'.toNat + 1) ∈ new.values :=
        hsubset (by simp [h, hold])
      have hbound := (mem_values_characters.mp htext).2 limit' hnew
      omega
    | some limit =>
      have hpositive := characterLimit_positive hold
      have htext : StoredValue.characters limit.toNat ∈ new.values :=
        hsubset (by simp [h, hold]; omega)
      have hbound := (mem_values_characters.mp htext).2 limit' hnew
      exact ⟨limit, rfl, by omega⟩
  · intro hlimits value hvalue
    obtain ⟨length, rfl⟩ := text_values hserver h hvalue
    refine mem_values_characters.mpr ⟨h', fun limit' hnew => ?_⟩
    obtain ⟨limit, hold, hle⟩ := hlimits limit' hnew
    exact ((mem_values_characters.mp hvalue).2 limit hold).trans hle

theorem text_lossy_iff (hserver : catalogue.IsServer) (h : old.isTextLike = true)
    (h' : new.isTextLike = true) (hdims : old.arrayDimensions = new.arrayDimensions) :
    old.isLossyNarrowingTo new = false ↔ Alike old new ∨
      ∀ limit' ∈ new.characterLimit, ∃ limit ∈ old.characterLimit, limit ≤ limit' := by
  cases hold : old.builtin with
  | none => simp [isTextLike, hold] at h
  | some b =>
    obtain ⟨-, hfixed, hexact⟩ := (family_apart hserver hold).1 (by simpa [isTextLike, hold] using h)
    by_cases halike : Alike old new
    · exact iff_of_true (isLossyNarrowingTo_of_alike halike) (Or.inl halike)
    · rw [isLossyNarrowingTo, if_neg halike, if_neg (not_not.mpr hdims), if_neg (by simp [hexact]),
        hfixed]
      simp only [h, h', and_self, if_true, halike, false_or]
      cases old.characterLimit <;> cases new.characterLimit <;> simp

/-- Alike or not, text is lost by the length of one that a spelling stands for. -/
theorem text_alike_iff (hserver : catalogue.IsServer) (h : old.isTextLike = true)
    (halike : Alike old new) :
    (∀ limit' ∈ new.characterLimit, ∃ limit ∈ old.characterLimit, limit ≤ limit') ↔
      ¬TakesImplicitLength old new := by
  obtain ⟨hbuiltin, hbuiltin', hcanonical, hraw, -⟩ := halike
  obtain ⟨b, hold⟩ := Option.isSome_iff_exists.mp hbuiltin
  obtain ⟨b', hnew⟩ := Option.isSome_iff_exists.mp hbuiltin'
  have hname := hserver.canonicals b (builtin_mem hold) b' (builtin_mem hnew)
    (by simpa [canonicalName, hold, hnew] using hcanonical)
  constructor
  · rintro hlimits ⟨-, -, -, -, hnone, hsome⟩
    obtain ⟨limit', hlimit'⟩ := Option.ne_none_iff_exists'.mp hsome
    obtain ⟨limit, hlimit, -⟩ := hlimits limit' hlimit'
    rw [hnone] at hlimit
    cases hlimit
  · intro hnot limit' hlimit'
    rcases typmod_of_alike hold hnew hname hraw with heq | ⟨hnone, himplied, himplied'⟩
    · refine ⟨limit', ?_, le_rfl⟩
      unfold characterLimit at hlimit' ⊢
      rwa [heq]
    · cases hlimit : old.characterLimit with
      | none =>
        exact absurd ⟨h, hcanonical, hnone, hraw ▸ hnone, hlimit, by rw [hlimit']; simp⟩ hnot
      | some limit =>
        refine ⟨limit, rfl, le_of_eq ?_⟩
        have hone : limit = 1 := by
          rcases himplied with htypmod | htypmod <;> simp [characterLimit, htypmod] at hlimit
          exact hlimit.symm
        have hone' : limit' = 1 := by
          rcases himplied' with htypmod | htypmod <;> simp [characterLimit, htypmod] at hlimit'
          exact hlimit'.symm
        rw [hone, hone']

end Text

section Exact

variable {old new last : ParsedDataType catalogue}

theorem typname_of_numeric {typname : String} (h : typmodKind typname = .numeric) :
    typname = "numeric" := by
  cases hrule : typmodRules.lookup typname with
  | none => simp [typmodKind, hrule] at h
  | some kind =>
    obtain ⟨before, after, hsplit, -⟩ := List.lookup_eq_some_iff.mp hrule
    have hmem : (typname, kind) ∈ typmodRules := by simp [hsplit]
    have hkind : kind = .numeric := by simpa [typmodKind, hrule] using h
    simpa [typmodRules, hkind] using hmem

theorem isExactNumeric_of_params {params : Int × Int} (h : old.numericParams = some params) :
    old.isExactNumeric = true := by
  obtain ⟨written, -, htypmod⟩ := old.parsed
  have hnumeric : ∃ precision scale, old.typmod = .numeric precision scale := by
    unfold numericParams at h
    split at h
    · next precision scale heq => exact ⟨precision, scale, heq⟩
    · cases h
  obtain ⟨precision, scale, hnumeric⟩ := hnumeric
  rw [htypmod] at hnumeric
  have hlength (typname w : String) (raw : Option String) :
      classifyLength typname w raw ≠ .numeric precision scale := by
    unfold classifyLength
    split <;> split <;> simp
  cases hold : old.builtin with
  | none =>
    rw [hold] at hnumeric
    simp only [classifyTypmod] at hnumeric
    split at hnumeric <;> cases hnumeric
  | some b =>
    rw [hold] at hnumeric
    simp only [classifyTypmod] at hnumeric
    cases hkind : typmodKind b.typname with
    | numeric =>
      simp [isExactNumeric, hold, BuiltinType.isExactNumeric, typname_of_numeric hkind]
    | characterLength => exact absurd hnumeric (by simpa [hkind] using hlength _ _ _)
    | bitLength => exact absurd hnumeric (by simpa [hkind] using hlength _ _ _)
    | _ =>
      simp only [hkind] at hnumeric
      split at hnumeric <;> cases hnumeric

theorem builtin_of_family (h : SameFamily old new) : ∃ b, old.builtin = some b := by
  cases hold : old.builtin with
  | some b => exact ⟨b, rfl⟩
  | none => simp [SameFamily, bits, isExactNumeric, isTextLike, hold] at h

theorem lossy_self (h : SameFamily old new) : old.isLossyNarrowingTo old = false := by
  obtain ⟨b, hold⟩ := builtin_of_family h
  have hbuiltin : old.isBuiltin = true := by simp [isBuiltin, hold]
  exact isLossyNarrowingTo_of_alike ⟨hbuiltin, hbuiltin, rfl, rfl, rfl⟩

/-- The change is called lossy exactly when it is, except for the two slips. -/
theorem lossy_iff_subset_iff (hserver : catalogue.IsServer) (h : Comparable old new) :
    (old.isLossyNarrowingTo new = false ↔ old.values ⊆ new.values) ↔
      ¬LosesPlaces old new ∧ ¬TakesImplicitLength old new := by
  obtain ⟨b, hold⟩ := builtin_of_family h.family
  rcases h.family with ⟨hbits, hbits'⟩ | ⟨hexact, hexact'⟩ | ⟨hlike, hlike'⟩
  · obtain ⟨width, hwidth⟩ := Option.isSome_iff_exists.mp hbits
    obtain ⟨width', hwidth'⟩ := Option.isSome_iff_exists.mp hbits'
    obtain ⟨-, hexact, hlike⟩ := (family_apart hserver hold).2.2 width hwidth
    rw [integer_lossy_iff hserver hwidth hwidth' h.dimensions,
      integer_values_subset_iff hserver hwidth hwidth']
    refine iff_of_true Iff.rfl ⟨?_, fun ⟨htext, _⟩ => by simp [hlike] at htext⟩
    rintro ⟨p, s, p', s', hparams, -⟩
    rw [isExactNumeric_of_params hparams] at hexact
    cases hexact
  · obtain ⟨-, hlike⟩ := (family_apart hserver hold).2.1 (by simpa [isExactNumeric, hold] using hexact)
    have himplicit : ¬TakesImplicitLength old new := fun ⟨htext, _⟩ => by simp [hlike] at htext
    rw [numeric_lossy_iff hexact hexact' h.dimensions,
      numeric_values_subset_iff hserver hexact hexact', and_iff_left himplicit]
    constructor
    · rintro hiff ⟨p, s, p', s', hparams, hparams', hp, hs, hplaces⟩
      have hkept := hiff.mp fun q' t' hnew => by
        cases hnew.symm.trans hparams'
        exact ⟨p, s, hparams, hp, hs⟩
      obtain ⟨q, t, hsame, -, hfits⟩ := hkept p' s' hparams'
      cases hsame.symm.trans hparams
      omega
    · intro hplaces
      refine forall₂_congr fun p' s' => forall_congr' fun hnew => exists₂_congr fun p s => ?_
      refine and_congr_right fun hparams => ?_
      have hnot : ¬(p ≤ p' ∧ s ≤ s' ∧ p' - s' < p - s) := fun hslip =>
        hplaces ⟨p, s, p', s', hparams, hnew, hslip⟩
      omega
  · obtain ⟨-, -, hexact⟩ := (family_apart hserver hold).1 (by simpa [isTextLike, hold] using hlike)
    have hplaces : ¬LosesPlaces old new := by
      rintro ⟨p, s, p', s', hparams, -⟩
      rw [isExactNumeric_of_params hparams] at hexact
      cases hexact
    rw [text_lossy_iff hserver hlike hlike' h.dimensions,
      text_values_subset_iff hserver hlike hlike', and_iff_right hplaces]
    by_cases halike : Alike old new
    · rw [text_alike_iff hserver hlike halike]
      simp [halike]
    · refine iff_of_true (by simp [halike]) fun himplicit => halike ?_
      have hnew : new.isBuiltin = true := by
        cases hnew : new.builtin with
        | none => simp [isTextLike, hnew] at hlike'
        | some b' => simp [isBuiltin, hnew]
      exact ⟨by simp [isBuiltin, hold], hnew, himplicit.2.1,
        himplicit.2.2.1.trans himplicit.2.2.2.1.symm, h.dimensions⟩

theorem lossy_trans (hserver : catalogue.IsServer) (h : Comparable old new)
    (hnext : Comparable new last) (hlength : ¬TakesImplicitLength old new)
    (hlength' : ¬TakesImplicitLength new last) (hkept : old.isLossyNarrowingTo new = false)
    (hkept' : new.isLossyNarrowingTo last = false) : old.isLossyNarrowingTo last = false := by
  obtain ⟨b, hnew⟩ := builtin_of_family hnext.family
  obtain ⟨htextApart, hexactApart, hbitsApart⟩ := family_apart hserver hnew
  have hdims := h.dimensions.trans hnext.dimensions
  rcases h.family with ⟨hbits, hbits'⟩ | ⟨hexact, hexact'⟩ | ⟨hlike, hlike'⟩
  · obtain ⟨width, hwidth⟩ := Option.isSome_iff_exists.mp hbits
    obtain ⟨width', hwidth'⟩ := Option.isSome_iff_exists.mp hbits'
    obtain ⟨-, hexact, hlike⟩ := hbitsApart width' hwidth'
    rcases hnext.family with ⟨-, hlast⟩ | ⟨hother, -⟩ | ⟨hother, -⟩
    · obtain ⟨width'', hwidth''⟩ := Option.isSome_iff_exists.mp hlast
      rw [integer_lossy_iff hserver hwidth hwidth' h.dimensions] at hkept
      rw [integer_lossy_iff hserver hwidth' hwidth'' hnext.dimensions] at hkept'
      exact (integer_lossy_iff hserver hwidth hwidth'' hdims).mpr (hkept.trans hkept')
    · simp [hexact] at hother
    · simp [hlike] at hother
  · obtain ⟨hbits, hlike⟩ := hexactApart (by simpa [isExactNumeric, hnew] using hexact')
    rcases hnext.family with ⟨hother, -⟩ | ⟨-, hlast⟩ | ⟨hother, -⟩
    · simp [hbits] at hother
    · rw [numeric_lossy_iff hexact hexact' h.dimensions] at hkept
      rw [numeric_lossy_iff hexact' hlast hnext.dimensions] at hkept'
      refine (numeric_lossy_iff hexact hlast hdims).mpr fun p'' s'' hparams'' => ?_
      obtain ⟨p', s', hparams', hp', hs'⟩ := hkept' p'' s'' hparams''
      obtain ⟨p, s, hparams, hp, hs⟩ := hkept p' s' hparams'
      exact ⟨p, s, hparams, hp.trans hp', hs.trans hs'⟩
    · simp [hlike] at hother
  · obtain ⟨hbits, -, hexact⟩ := htextApart (by simpa [isTextLike, hnew] using hlike')
    rcases hnext.family with ⟨hother, -⟩ | ⟨hother, -⟩ | ⟨-, hlast⟩
    · simp [hbits] at hother
    · simp [hexact] at hother
    · have hlimits := ((text_lossy_iff hserver hlike hlike' h.dimensions).mp hkept).elim
        (fun halike => (text_alike_iff hserver hlike halike).mpr hlength) id
      have hlimits' := ((text_lossy_iff hserver hlike' hlast hnext.dimensions).mp hkept').elim
        (fun halike => (text_alike_iff hserver hlike' halike).mpr hlength') id
      refine (text_lossy_iff hserver hlike hlast hdims).mpr (Or.inr fun limit'' hlimit'' => ?_)
      obtain ⟨limit', hlimit', hle'⟩ := hlimits' limit'' hlimit''
      obtain ⟨limit, hlimit, hle⟩ := hlimits limit' hlimit'
      exact ⟨limit, hlimit, hle.trans hle'⟩

end Exact

end ParsedDataType

section Samples

open ParsedDataType

/-- Some of the built-in types. -/
def serverTypes : BuiltinTypeCatalogue where
  types :=
    [⟨"bpchar", "character", .string, none⟩, ⟨"int2", "smallint", .numeric, some 16⟩,
      ⟨"int4", "integer", .numeric, some 32⟩, ⟨"int8", "bigint", .numeric, some 64⟩,
      ⟨"numeric", "numeric", .numeric, none⟩, ⟨"text", "text", .string, none⟩,
      ⟨"varchar", "character varying", .string, none⟩]
  distinct := by decide

theorem serverTypes_isServer : serverTypes.IsServer where
  widths entry hentry bits h := by
    simp only [serverTypes, List.mem_cons, List.not_mem_nil, or_false] at hentry
    rcases hentry with rfl | rfl | rfl | rfl | rfl | rfl | rfl <;>
      simp [integerWidth, List.lookup_cons] at h <;> simp [← h]
  strings := by decide
  canonicals := by decide

def declared (raw : String) : ParsedDataType serverTypes := parse TypeReference.asciiLetters serverTypes raw

def samples : List String := ["numeric(10,2)", "numeric(10,4)", "numeric(12,4)", "bpchar", "char"]

theorem declared_readings :
    (∀ raw ∈ samples,
      (declared raw).isValidDeclaration = true ∧ (declared raw).arrayDimensions = 0) ∧
    (∀ raw ∈ ["numeric(10,2)", "numeric(10,4)", "numeric(12,4)"],
      (declared raw).isExactNumeric = true ∧ (declared raw).isTextLike = false) ∧
    (declared "numeric(10,2)").numericParams = some (10, 2) ∧
    (declared "numeric(10,4)").numericParams = some (10, 4) ∧
    (declared "numeric(12,4)").numericParams = some (12, 4) ∧
    (∀ raw ∈ ["bpchar", "char"], (declared raw).isTextLike = true) ∧
    (declared "bpchar").characterLimit = none ∧ (declared "char").characterLimit = some 1 ∧
    (declared "numeric(10,2)").isLossyNarrowingTo (declared "numeric(10,4)") = false ∧
    (declared "bpchar").isLossyNarrowingTo (declared "char") = false := by
  decide +kernel

theorem declared_comparable {raw raw' : String} (h : raw ∈ samples) (h' : raw' ∈ samples)
    (hfamily : SameFamily (declared raw) (declared raw')) :
    Comparable (declared raw) (declared raw') := by
  obtain ⟨haccepted, hdims⟩ := declared_readings.1 raw h
  obtain ⟨haccepted', hdims'⟩ := declared_readings.1 raw' h'
  exact ⟨haccepted, haccepted', hfamily, hdims.trans hdims'.symm⟩

end Samples

end SafeMigrate
