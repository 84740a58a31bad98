import SafeMigrate.SequenceCommands

/-! What the parameters of a sequence satisfy once `init_sequence_parameters`
has let them through, and what its options have to satisfy for that. -/

namespace SafeMigrate

theorem exists_of_bind_ok {ε α β : Type} {x : Except ε α} {k : α → Except ε β} {b : β}
    (h : x >>= k = .ok b) : ∃ a, x = .ok a ∧ k a = .ok b := by
  cases x with
  | error e => cases h
  | ok a => exact ⟨a, rfl, h⟩

theorem exists_of_map_ok {ε α β : Type} {x : Except ε α} {f : α → β} {b : β}
    (h : x.map f = .ok b) : ∃ a, x = .ok a ∧ f a = b := by
  cases x with
  | error e => cases h
  | ok a => exact ⟨a, rfl, Except.ok.inj h⟩

/-- The values that 64 bits hold. -/
def IsI64 (n : Int) : Prop := -9223372036854775808 ≤ n ∧ n ≤ 9223372036854775807

theorem isI64_one : IsI64 1 := ⟨by decide, by decide⟩

theorem isI64_of_parseI64 {text : String} {n : Int} (h : parseI64 text = some n) : IsI64 n :=
  of_decide_eq_true (p := -9223372036854775808 ≤ n ∧ n ≤ 9223372036854775807)
    (Option.filter_eq_some_iff.mp h).2

/-- The range of a sequence data type, over which its values lie. -/
def SequenceParameters.InType (p : SequenceParameters) : Prop :=
  ∃ name low high, sequenceType p.dataType = some (name, low, high) ∧
    low ≤ p.minValue ∧ p.maxValue ≤ high

structure SequenceParameters.Valid (p : SequenceParameters) : Prop where
  increment_ne : p.increment ≠ 0
  inType : p.InType
  min_lt : p.minValue < p.maxValue
  min_le : p.minValue ≤ p.startValue
  le_max : p.startValue ≤ p.maxValue
  cache_pos : 0 < p.cacheSize
  increment_i64 : IsI64 p.increment
  cache_i64 : IsI64 p.cacheSize

/-- Every name of a sequence type has a range within 64 bits. -/
theorem isI64_of_sequenceType {dataType name : String} {low high : Int}
    (h : sequenceType dataType = some (name, low, high)) : IsI64 low ∧ IsI64 high := by
  unfold sequenceType at h
  split at h <;> cases h <;> constructor <;> constructor <;> decide

namespace SequenceParameters.Valid

variable {p : SequenceParameters}

/-- All the values of valid parameters fit into 64 bits. -/
theorem bounds_i64 (h : p.Valid) :
    IsI64 p.minValue ∧ IsI64 p.maxValue ∧ IsI64 p.startValue := by
  obtain ⟨name, low, high, htype, hlow, hhigh⟩ := h.inType
  obtain ⟨⟨hlow', -⟩, -, hhigh'⟩ := isI64_of_sequenceType htype
  have hlt := h.min_lt
  have hmin := h.min_le
  have hmax := h.le_max
  refine ⟨⟨?_, ?_⟩, ⟨?_, ?_⟩, ?_, ?_⟩ <;> omega

theorem persistence (h : p.Valid) (persistence : SequencePersistence) :
    Valid { p with persistence } :=
  ⟨h.increment_ne, h.inType, h.min_lt, h.min_le, h.le_max, h.cache_pos, h.increment_i64,
    h.cache_i64⟩

end SequenceParameters.Valid

/-- The increment and the cache of a statement are 64-bit values. -/
structure SequenceOptionSet.InRange (options : SequenceOptionSet) : Prop where
  increment : ∀ n, options.increment = some n → IsI64 n
  cache : ∀ n, options.cache = some n → IsI64 n

section Checks

theorem ok_of_check {ε β : Type} {c : Prop} [Decidable c] {e : ε} {k : PUnit → Except ε β} {b : β}
    (h : (if c then (throw e >>= k) else k ⟨⟩) = .ok b) : ¬c ∧ k ⟨⟩ = .ok b := by
  by_cases hc : c
  · rw [if_pos hc] at h
    cases h
  · rw [if_neg hc] at h
    exact ⟨hc, h⟩

theorem checkBounded_ok {clause lowClause highClause : String} {value low high : Int}
    (h : checkBounded clause lowClause highClause value low high = .ok ()) :
    low ≤ value ∧ value ≤ high := by
  unfold checkBounded at h
  split at h
  · cases h
  · split at h
    · cases h
    · omega

/-- What the checks of `init_sequence_parameters` leave of an option set. -/
structure SequenceParameters.Initialized (p current : SequenceParameters)
    (options : SequenceOptionSet) (isInit : Bool) : Prop where
  inType : p.InType
  min_lt : p.minValue < p.maxValue
  start : p.minValue ≤ p.startValue ∧ p.startValue ≤ p.maxValue
  restart : ∀ value, options.restart = some value →
    p.minValue ≤ value.getD p.startValue ∧ value.getD p.startValue ≤ p.maxValue
  increment : p.increment = options.increment.getD (if isInit then 1 else current.increment)
  increment_ne : options.increment ≠ some 0
  cache : p.cacheSize = options.cache.getD (if isInit then 1 else current.cacheSize)
  cache_pos : ∀ n, options.cache = some n → 0 < n

theorem initialized_of_ok {current p : SequenceParameters} {options : SequenceOptionSet}
    {isInit : Bool} (h : initSequenceParameters current options isInit = .ok p) :
    p.Initialized current options isInit := by
  unfold initSequenceParameters at h
  extract_lets base at h
  have hbase : ∃ merged resetMax resetMin, base (merged, resetMax, resetMin) = .ok p ∧
      merged.increment = current.increment ∧ merged.cacheSize = current.cacheSize := by
    clear_value base
    split at h
    · obtain ⟨_, hpure, h⟩ := exists_of_bind_ok h
      cases hpure
      exact ⟨_, _, _, h, rfl, rfl⟩
    · split at h
      · cases h
      · obtain ⟨_, hpure, h⟩ := exists_of_bind_ok h
        cases hpure
        exact ⟨_, _, _, h, rfl, rfl⟩
  clear h
  obtain ⟨merged, resetMax, resetMin, h, hincrement, hcache⟩ := hbase
  unfold base at h
  clear base
  dsimp -zeta only at h
  split at h
  · rename_i name typeMin typeMax htype
    extract_lets increment cycle maxValue minValue startValue cacheSize finish checkCache
      checkStart checkOrder checkMin checkMax at h
    clear_value cycle startValue minValue maxValue
    obtain ⟨hzero, h⟩ := ok_of_check h
    obtain ⟨hmax, h⟩ := ok_of_check h
    obtain ⟨hmin, h⟩ := ok_of_check h
    obtain ⟨horder, h⟩ := ok_of_check h
    obtain ⟨_, hstart, h⟩ := exists_of_bind_ok h
    have hrestart : checkCache ⟨⟩ = .ok p ∧ ∀ value, options.restart = some value →
        minValue ≤ value.getD startValue ∧ value.getD startValue ≤ maxValue := by
      split at h
      · rename_i hnone
        exact ⟨h, fun value hvalue => by simp [hnone] at hvalue⟩
      · rename_i restart hsome
        obtain ⟨_, hrestart, h⟩ := exists_of_bind_ok h
        refine ⟨h, fun value hvalue => ?_⟩
        cases hsome.symm.trans hvalue
        exact checkBounded_ok hrestart
    obtain ⟨hpositive, h⟩ := ok_of_check hrestart.1
    cases h
    have hlow : typeMin ≤ minValue := by omega
    have hhigh : maxValue ≤ typeMax := by omega
    exact {
      inType := ⟨name, typeMin, typeMax, htype, hlow, hhigh⟩
      min_lt := Int.not_le.mp horder
      start := checkBounded_ok hstart
      restart := hrestart.2
      increment := by rw [← hincrement]
      increment_ne := hzero
      cache := by rw [← hcache]
      cache_pos := fun n hn => by simpa [hn] using hpositive }
  · cases h

theorem SequenceParameters.Initialized.valid {current p : SequenceParameters}
    {options : SequenceOptionSet} {isInit : Bool} (h : p.Initialized current options isInit)
    (hoptions : options.InRange) (hcurrent : isInit = false → current.Valid) : p.Valid := by
  have hincrement : p.increment ≠ 0 ∧ IsI64 p.increment := by
    rw [h.increment]
    cases hgiven : options.increment with
    | some n => exact ⟨fun hzero => h.increment_ne (hgiven.trans (congrArg some hzero)),
        hoptions.increment n hgiven⟩
    | none =>
      cases isInit with
      | true => exact ⟨Int.one_ne_zero, isI64_one⟩
      | false => exact ⟨(hcurrent rfl).increment_ne, (hcurrent rfl).increment_i64⟩
  have hcache : 0 < p.cacheSize ∧ IsI64 p.cacheSize := by
    rw [h.cache]
    cases hgiven : options.cache with
    | some n => exact ⟨h.cache_pos n hgiven, hoptions.cache n hgiven⟩
    | none =>
      cases isInit with
      | true => exact ⟨Int.one_pos, isI64_one⟩
      | false => exact ⟨(hcurrent rfl).cache_pos, (hcurrent rfl).cache_i64⟩
  exact ⟨hincrement.1, h.inType, h.min_lt, h.start.1, h.start.2, hcache.1, hincrement.2, hcache.2⟩

end Checks

section Columns

def IdentitySequenceOptions.InRange (options : IdentitySequenceOptions) : Prop :=
  (SequenceOptionSet.fromIdentityOptions options).InRange

theorem sequenceType_smallint : sequenceType "smallint" = some ("smallint", -32768, 32767) := by
  decide +kernel

theorem sequenceType_integer :
    sequenceType "integer" = some ("integer", -2147483648, 2147483647) := by
  decide +kernel

theorem sequenceType_bigint : sequenceType "bigint" =
    some ("bigint", -9223372036854775808, 9223372036854775807) := by
  decide +kernel

/-- An ascending sequence over the positive values of its type. -/
theorem ascending_valid {dataType name : String} {low high : Int}
    (htype : sequenceType dataType = some (name, low, high)) (hlow : low ≤ 1) (hhigh : 1 < high)
    (persistence : SequencePersistence) :
    SequenceParameters.Valid { dataType, maxValue := high, persistence } :=
  ⟨Int.one_ne_zero, ⟨name, low, high, htype, hlow, le_refl high⟩, hhigh, le_refl 1, hhigh.le,
    Int.one_pos, isI64_one, isI64_one⟩

theorem defaultColumnSequenceParameters_valid (dataType : Option String)
    (persistence : Persistence) :
    (defaultColumnSequenceParameters dataType persistence).Valid := by
  have hsmall := ascending_valid sequenceType_smallint (by decide) (by decide)
  have hinteger := ascending_valid sequenceType_integer (by decide) (by decide)
  have hbig := ascending_valid sequenceType_bigint (by decide) (by decide)
  unfold defaultColumnSequenceParameters
  split
  rename_i name high hchosen
  split at hchosen <;> cases hchosen
  all_goals first | exact hsmall _ | exact hinteger _ | exact hbig _

theorem identitySequenceParameters_valid {columnType : Option String} {persistence : Persistence}
    {options : Option IdentitySequenceOptions} {p : SequenceParameters}
    (hoptions : ∀ o, options = some o → o.InRange)
    (h : identitySequenceParameters columnType persistence options = .ok p) : p.Valid := by
  unfold identitySequenceParameters at h
  extract_lets set finish at h
  have hset : set.InRange := by
    cases options with
    | none =>
      refine ⟨fun n hn => ?_, fun n hn => ?_⟩
      · cases hn
      · cases hn
    | some given => exact ⟨(hoptions given rfl).increment, (hoptions given rfl).cache⟩
  have hfinish : ∃ dataType, finish dataType = .ok p := by
    clear_value finish
    split at h
    · obtain ⟨dataType, -, h⟩ := exists_of_bind_ok h
      exact ⟨dataType, h⟩
    · split at h <;> obtain ⟨dataType, -, h⟩ := exists_of_bind_ok h <;> exact ⟨dataType, h⟩
  clear h
  obtain ⟨dataType, h⟩ := hfinish
  obtain ⟨-, h⟩ := ok_of_check h
  obtain ⟨parameters, hparameters, h⟩ := exists_of_bind_ok h
  cases h
  exact ((initialized_of_ok hparameters).valid hset fun hinit => by cases hinit).persistence _

end Columns

end SafeMigrate
