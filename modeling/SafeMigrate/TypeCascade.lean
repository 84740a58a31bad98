import SafeMigrate.Saturation
import SafeMigrate.TypeRename

/-! What `DROP TYPE` and `DROP DOMAIN` take with them when they cascade: the
types that rest on a dropped one, and the fields of composites that survive. -/

namespace SafeMigrate

open Saturation

/-- The characters before the first occurrence of a word, and those from it on. -/
def splitAtWord (word : List Char) : List Char → Option (List Char × List Char)
  | [] => if word.isEmpty then some ([], []) else none
  | c :: cs =>
    if word.isPrefixOf (c :: cs) then some ([], c :: cs)
    else (splitAtWord word cs).map fun (before, after) => (c :: before, after)

/-- The first `range` becomes `multirange`, or else `_multirange` is appended,
and the result is clipped. -/
def multirangeCompanionId (range : ObjectId) : ObjectId :=
  let name := match splitAtWord "range".toList range.name.toList with
    | some (before, after) => String.ofList before ++ "multi" ++ String.ofList after
    | none =>
      truncateBytes range.name (maxIdentifierBytes - "_multirange".utf8ByteSize) ++ "_multirange"
  ⟨range.schema, truncateBytes name maxIdentifierBytes⟩

def typeReferenceMatches (reference : Option ObjectId) (id : ObjectId) : Bool :=
  reference.any fun reference => reference == id || reference == arrayTypeId id

def typeReferenceMatchesVictims (reference : Option ObjectId) (ids : Finset ObjectId) : Bool :=
  decide (∃ id ∈ ids, typeReferenceMatches reference id = true)

/-- The multirange that a range was recorded with. -/
def TypeKind.recordedMultirange : TypeKind → Option ObjectId
  | .range state => state.multirange
  | _ => none

/-- The dropped types, and the fields taken out of composites. -/
abbrev TypeFates := Finset ObjectId × Finset (ObjectId × String)

/-- How much has fallen. -/
def TypeFates.size (fates : TypeFates) : Nat := fates.1.card + fates.2.card

/-- `dropped.insert(id)`, with the flag raised if that is new. -/
def takeType (acc : TypeFates × Bool) (id : ObjectId) : TypeFates × Bool :=
  if id ∈ acc.1.1 then acc else ((insert id acc.1.1, acc.1.2), true)

/-- `removed_fields.insert(field)`, with the flag raised if that is new. -/
def takeField (acc : TypeFates × Bool) (field : ObjectId × String) : TypeFates × Bool :=
  if field ∈ acc.1.2 then acc else ((acc.1.1, insert field acc.1.2), true)

namespace AnalysisState

/-- A dropped range takes its multirange, recorded or as the server names it. -/
def takeCompanion (s : AnalysisState) (acc : TypeFates × Bool) (victim : ObjectId) :
    TypeFates × Bool :=
  match s.types.lookup victim with
  | some (.present state) =>
    match state.kind with
    | .range range =>
      match range.multirange with
      | some multirange => if s.typeIsPresent multirange then takeType acc multirange else acc
      | none =>
        if s.typeIsPresent (multirangeCompanionId victim) then
          takeType acc (multirangeCompanionId victim)
        else acc
    | _ => acc
  | _ => acc

/-- The present types, with what they are. -/
def presentTypes (s : AnalysisState) : List (ObjectId × TypeKind) :=
  s.types.entries.filterMap fun entry =>
    match entry.2 with
    | .present state => some (entry.1, state.kind)
    | .dropped => none

end AnalysisState

/-- A composite loses the fields whose type is dropped. -/
def takeMatchingField (id : ObjectId) (acc : TypeFates × Bool) (field : CompositeFieldState) :
    TypeFates × Bool :=
  if typeReferenceMatchesVictims field.dataTypeId acc.1.1 then takeField acc (id, field.name)
  else acc

/-- A present type that rests on a dropped one goes too. -/
def takeDependent (acc : TypeFates × Bool) (entry : ObjectId × TypeKind) : TypeFates × Bool :=
  if entry.1 ∈ acc.1.1 then acc
  else match entry.2 with
    | .domain state =>
      if typeReferenceMatchesVictims state.baseTypeId acc.1.1 then takeType acc entry.1 else acc
    | .range state =>
      if typeReferenceMatchesVictims state.subtypeId acc.1.1 then
        let dropped := insert entry.1 acc.1.1
        -- the multirange goes along, whether there is such a type or not
        match state.multirange with
        | some multirange => ((insert multirange dropped, acc.1.2), true)
        | none => ((dropped, acc.1.2), true)
      else acc
    | .multirange range =>
      if range.any fun range => decide (range ∈ acc.1.1) then takeType acc entry.1 else acc
    | .composite fields => fields.foldl (takeMatchingField entry.1) acc
    | .base _ options =>
      match options.element with
      | some element => if ⟨entry.1.schema, element⟩ ∈ acc.1.1 then takeType acc entry.1 else acc
      | none => acc
    | .enum _ => acc

/-- The orders in which the rounds go through the dropped types and through
the catalog: those of hash tables, so any at all. -/
structure IterationOrder (s : AnalysisState) where
  victims : Nat → Finset ObjectId → List ObjectId
  present : Nat → List (ObjectId × TypeKind)
  mem_victims : ∀ n dropped id, id ∈ victims n dropped ↔ id ∈ dropped
  perm_present : ∀ n, (present n).Perm s.presentTypes

namespace AnalysisState

variable (s : AnalysisState)

/-- One round: first the companions of what has fallen, then the catalog. -/
def cascadeRound (order : IterationOrder s) (n : Nat) (fates : TypeFates) : TypeFates × Bool :=
  (order.present n).foldl takeDependent
    ((order.victims n fates.1).foldl s.takeCompanion (fates, false))

/-- All types that can fall. -/
def fallingTypes (victims : List ObjectId) : Finset ObjectId :=
  victims.toFinset ∪ (s.presentTypes.map (·.1)).toFinset ∪
    (s.presentTypes.filterMap fun entry => entry.2.recordedMultirange).toFinset

/-- All fields that composites can lose. -/
def fallingFields : Finset (ObjectId × String) :=
  (s.presentTypes.flatMap fun entry =>
    match entry.2 with
    | .composite fields => fields.map fun field => (entry.1, field.name)
    | _ => []).toFinset

def typeCascadeFuel (victims : List ObjectId) : Nat :=
  (s.fallingTypes victims).card + s.fallingFields.card + 1

/-- The dropped types and the lost fields of `DROP` with these victims. -/
def typeCascadeClosure (order : IterationOrder s) (victims : List ObjectId) : Option TypeFates :=
  saturate (s.cascadeRound order) (s.typeCascadeFuel victims) 0 (victims.toFinset, ∅)

end AnalysisState

end SafeMigrate
