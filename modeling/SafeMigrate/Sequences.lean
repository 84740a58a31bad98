import SafeMigrate.Statement

/-! Parameters of the sequences behind serial and identity columns. An invalid
combination of options is refused with its reason. -/

namespace SafeMigrate

/-- The canonical name and value range of a sequence data type. -/
def sequenceType (dataType : String) : Option (String × Int × Int) :=
  match toAsciiLowercase (trimText dataType) with
  | "smallint" | "int2" => some ("smallint", -32768, 32767)
  | "integer" | "int" | "int4" => some ("integer", -2147483648, 2147483647)
  | "bigint" | "int8" => some ("bigint", -9223372036854775808, 9223372036854775807)
  | _ => none

structure SequenceOptionSet where
  asType : Option String := none
  increment : Option Int := none
  cycle : Option Bool := none
  maxValue : Option (Option Int) := none
  minValue : Option (Option Int) := none
  start : Option Int := none
  restart : Option (Option Int) := none
  cache : Option Int := none
  logged : Option Bool := none
deriving DecidableEq

structure IdentitySequenceOptions where
  dataType : Option String := none
  startValue : Option Int := none
  increment : Option Int := none
  minValue : Option (Option Int) := none
  maxValue : Option (Option Int) := none
  cacheSize : Option Int := none
  cycle : Option Bool := none
  persistence : Option Bool := none
  sequenceName : Option ObjectRef := none
deriving DecidableEq

def SequenceOptionSet.fromIdentityOptions (options : IdentitySequenceOptions) : SequenceOptionSet :=
  { asType := options.dataType, increment := options.increment, cycle := options.cycle,
    maxValue := options.maxValue, minValue := options.minValue, start := options.startValue,
    restart := none, cache := options.cacheSize, logged := options.persistence }

def SequenceOptionSet.persistence (options : SequenceOptionSet) : Option SequencePersistence :=
  options.logged.map fun logged => if logged then .permanent else .unlogged

def outOfRangeReason (clause : String) (value : Int) (dataType : String) : String :=
  clause ++ " (" ++ toString value ++ ") is out of range for sequence data type " ++ dataType

/-- Where an omitted or `NO` bound falls. -/
def resolveBound (option : Option (Option Int)) (isInit reset towardsType : Bool)
    (typeBound otherwise current : Int) : Int :=
  match option with
  | some (some value) => value
  | some none => if towardsType || reset then typeBound else otherwise
  | none => if isInit || reset then (if towardsType || reset then typeBound else otherwise)
      else current

def checkBounded (clause lowClause highClause : String) (value low high : Int) :
    Except String Unit :=
  if value < low then
    .error (clause ++ " (" ++ toString value ++ ") cannot be less than " ++ lowClause ++
      " (" ++ toString low ++ ")")
  else if high < value then
    .error (clause ++ " (" ++ toString value ++ ") cannot be greater than " ++ highClause ++
      " (" ++ toString high ++ ")")
  else .ok ()

/-- The options form one bag, applied in a fixed order whatever their order
in the statement. -/
def initSequenceParameters (current : SequenceParameters) (options : SequenceOptionSet)
    (isInit : Bool) : Except String SequenceParameters := do
  let (merged, resetMax, resetMin) ← match options.asType with
    | none => pure (current, false, false)
    | some dataType => match sequenceType dataType with
      | none => throw "sequence type must be smallint, integer, or bigint"
      | some (name, _, _) =>
        let old := if isInit then none else sequenceType current.dataType
        pure ({ current with dataType := name },
          old.any fun old => current.maxValue == old.2.2,
          old.any fun old => current.minValue == old.2.1)
  let some (_, typeMin, typeMax) := sequenceType merged.dataType
    | throw ("sequence data type \"" ++ merged.dataType ++ "\" is invalid")
  if options.increment = some 0 then throw "INCREMENT must not be zero"
  let increment := options.increment.getD (if isInit then 1 else merged.increment)
  let cycle := options.cycle.getD (if isInit then false else merged.cycle)
  let maxValue := resolveBound options.maxValue isInit resetMax (decide (0 < increment)) typeMax (-1)
    merged.maxValue
  if maxValue < typeMin ∨ typeMax < maxValue then
    throw (outOfRangeReason "MAXVALUE" maxValue merged.dataType)
  let minValue := resolveBound options.minValue isInit resetMin (decide (increment < 0)) typeMin 1
    merged.minValue
  if minValue < typeMin ∨ typeMax < minValue then
    throw (outOfRangeReason "MINVALUE" minValue merged.dataType)
  if maxValue ≤ minValue then
    throw ("MINVALUE (" ++ toString minValue ++ ") must be less than MAXVALUE (" ++
      toString maxValue ++ ")")
  let startValue := options.start.getD
    (if isInit then (if 0 < increment then minValue else maxValue) else merged.startValue)
  checkBounded "START value" "MINVALUE" "MAXVALUE" startValue minValue maxValue
  match options.restart with
  | none => pure ()
  | some restart =>
    checkBounded "RESTART value" "MINVALUE" "MAXVALUE" (restart.getD startValue) minValue maxValue
  if options.cache.any (· ≤ 0) then
    throw ("CACHE (" ++ toString (options.cache.getD 0) ++ ") must be greater than zero")
  let cacheSize := options.cache.getD (if isInit then 1 else merged.cacheSize)
  pure { merged with increment, cycle, maxValue, minValue, startValue, cacheSize }

def sequencePersistence : Persistence → SequencePersistence
  | .permanent => .permanent
  | .temporary => .temporary
  | .unlogged => .unlogged

def defaultColumnSequenceParameters (dataType : Option String) (persistence : Persistence) :
    SequenceParameters :=
  let (dataType, maxValue) : String × Int :=
    match dataType.map fun ty => toAsciiLowercase (trimText ty) with
    | some "smallint" | some "smallserial" | some "serial2" => ("smallint", 32767)
    | some "integer" | some "int" | some "int4" | some "serial" | some "serial4" =>
      ("integer", 2147483647)
    | _ => ("bigint", 9223372036854775807)
  { dataType, maxValue, persistence := sequencePersistence persistence }

/-- The column type stands for a written `AS`, which would be a second one. -/
def identitySequenceParameters (columnType : Option String) (persistence : Persistence)
    (options : Option IdentitySequenceOptions) : Except String SequenceParameters := do
  let dataType ← match columnType with
    | none => pure "bigint"
    | some columnType => match sequenceType columnType with
      | some (dataType, _, _) => pure dataType
      | none => throw "identity column type must be smallint, integer, or bigint"
  if options.any fun options => options.dataType.isSome then
    throw "conflicting or redundant options: \"as\" specified more than once"
  let optionSet := match options with
    | none => {}
    | some options => { SequenceOptionSet.fromIdentityOptions options with asType := none }
  let parameters ← initSequenceParameters
    { dataType, persistence := sequencePersistence persistence } optionSet true
  pure { parameters with persistence := optionSet.persistence.getD parameters.persistence }

end SafeMigrate
