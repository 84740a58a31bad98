import SafeMigrate.TypeCascade
import Mathlib.Data.Finset.Option

/-! What falls with a set of types, as a relation, and what one step of the
rounds adds. -/

namespace SafeMigrate

open Saturation

/-- A type of this kind rests on another one. With `wide`, a base type rests on
the element of its array type as well. -/
def TypeKind.RestsOn (wide : Prop) (id : ObjectId) (kind : TypeKind) (support : ObjectId) : Prop :=
  match kind with
  | .domain state => typeReferenceMatches state.baseTypeId support = true
  | .range state => typeReferenceMatches state.subtypeId support = true
  | .multirange source => source = some support
  | .base _ options => ∃ element, options.element = some element ∧
      ((⟨id.schema, element⟩ : ObjectId) = support ∨
        wide ∧ (⟨id.schema, element⟩ : ObjectId) = arrayTypeId support)
  | .composite _ | .enum _ => False

namespace AnalysisState

/-- The multirange of a present range: the recorded one, or as the server names it. -/
def companionOf (s : AnalysisState) (id : ObjectId) : Option ObjectId :=
  match s.types.lookup id with
  | some (.present state) =>
    match state.kind with
    | .range range => some (range.multirange.getD (multirangeCompanionId id))
    | _ => none
  | _ => none

/-- A type falls with the victims: the least set closed under the rules. -/
inductive Falls (wide : Prop) (s : AnalysisState) (victims : List ObjectId) : ObjectId → Prop
  | victim {id : ObjectId} (h : id ∈ victims) : Falls wide s victims id
  | companion {id multirange : ObjectId} (h : Falls wide s victims id)
      (hof : s.companionOf id = some multirange) (hpresent : s.typeIsPresent multirange = true) :
      Falls wide s victims multirange
  | rests {id support : ObjectId} {state : TypeState}
      (hstate : s.types.lookup id = some (.present state)) (h : Falls wide s victims support)
      (hrests : state.kind.RestsOn wide id support) : Falls wide s victims id

/-- A present composite has a field of a type that falls, or of its array type. -/
def HasFallingField (wide : Prop) (s : AnalysisState) (victims : List ObjectId) (id : ObjectId)
    (name : String) : Prop :=
  ∃ state fields, s.types.lookup id = some (.present state) ∧ state.kind = .composite fields ∧
    ∃ field ∈ fields, field.name = name ∧
      ∃ support, s.Falls wide victims support ∧ typeReferenceMatches field.dataTypeId support = true

end AnalysisState

section Steps

variable {s : AnalysisState} {acc : TypeFates × Bool} {id x : ObjectId} {kind : TypeKind}

theorem typeReferenceMatchesVictims_iff {reference : Option ObjectId} {ids : Finset ObjectId} :
    typeReferenceMatchesVictims reference ids = true ↔
      ∃ id ∈ ids, typeReferenceMatches reference id = true := decide_eq_true_iff

theorem mem_takeType : x ∈ (takeType acc id).1.1 ↔ x = id ∨ x ∈ acc.1.1 := by
  unfold takeType
  split
  · rename_i hid
    refine ⟨Or.inr, ?_⟩
    rintro (rfl | h)
    · exact hid
    · exact h
  · exact Finset.mem_insert

theorem takeType_fields : (takeType acc id).1.2 = acc.1.2 := by
  unfold takeType
  split <;> rfl

theorem flags_takeType : Flags takeType := by
  intro acc id hdown
  unfold takeType at hdown ⊢
  split
  · rfl
  · rename_i hid
    rw [if_neg hid] at hdown
    cases hdown

theorem grows_takeType : Grows TypeFates.size takeType := by
  intro acc id
  unfold takeType TypeFates.size
  split
  · exact ⟨Nat.le_refl _, Or.inl⟩
  · rename_i hid
    have hcard := Finset.card_insert_of_notMem hid
    dsimp only
    exact ⟨by omega, fun _ => Or.inr (by omega)⟩

theorem flags_takeMatchingField (id : ObjectId) : Flags (takeMatchingField id) := by
  intro acc field hdown
  unfold takeMatchingField takeField at hdown ⊢
  split
  · rename_i hmatch
    rw [if_pos hmatch] at hdown
    split
    · rfl
    · rename_i hfield
      rw [if_neg hfield] at hdown
      cases hdown
  · rfl

theorem grows_takeMatchingField (id : ObjectId) : Grows TypeFates.size (takeMatchingField id) := by
  intro acc field
  unfold takeMatchingField takeField TypeFates.size
  split
  · split
    · exact ⟨Nat.le_refl _, Or.inl⟩
    · rename_i hfield
      have hcard := Finset.card_insert_of_notMem hfield
      dsimp only
      exact ⟨by omega, fun _ => Or.inr (by omega)⟩
  · exact ⟨Nat.le_refl _, Or.inl⟩

theorem takeMatchingField_types (field : CompositeFieldState) :
    (takeMatchingField id acc field).1.1 = acc.1.1 := by
  unfold takeMatchingField takeField
  split
  · split <;> rfl
  · rfl

theorem mem_takeMatchingField {field : CompositeFieldState} {p : ObjectId × String} :
    p ∈ (takeMatchingField id acc field).1.2 ↔
      (typeReferenceMatchesVictims field.dataTypeId acc.1.1 = true ∧ p = (id, field.name)) ∨
        p ∈ acc.1.2 := by
  unfold takeMatchingField takeField
  split
  · rename_i hmatch
    split
    · rename_i hfield
      refine ⟨Or.inr, ?_⟩
      rintro (⟨-, rfl⟩ | h)
      · exact hfield
      · exact h
    · simp [hmatch]
  · rename_i hmatch
    simp [hmatch]

theorem foldl_takeMatchingField (fields : List CompositeFieldState) {p : ObjectId × String} :
    (fields.foldl (takeMatchingField id) acc).1.1 = acc.1.1 ∧
      (p ∈ (fields.foldl (takeMatchingField id) acc).1.2 ↔
        (∃ field ∈ fields, typeReferenceMatchesVictims field.dataTypeId acc.1.1 = true ∧
          p = (id, field.name)) ∨ p ∈ acc.1.2) := by
  induction fields generalizing acc with
  | nil => simp
  | cons field fields ih =>
    rw [List.foldl_cons]
    obtain ⟨htypes, hfields⟩ := @ih (takeMatchingField id acc field)
    rw [takeMatchingField_types] at htypes hfields
    refine ⟨htypes, ?_⟩
    rw [hfields, mem_takeMatchingField, List.exists_mem_cons_iff, or_left_comm, or_assoc]

/-- The step for a companion is no step, or takes the companion if there is one. -/
theorem takeCompanion_cases (s : AnalysisState) (acc : TypeFates × Bool) (id : ObjectId) :
    (s.takeCompanion acc id = acc ∧
      ∀ companion, s.companionOf id = some companion → s.typeIsPresent companion = false) ∨
    ∃ companion, s.companionOf id = some companion ∧ s.typeIsPresent companion = true ∧
      s.takeCompanion acc id = takeType acc companion := by
  unfold AnalysisState.takeCompanion AnalysisState.companionOf
  cases hlookup : s.types.lookup id with
  | none => exact Or.inl ⟨rfl, by simp⟩
  | some overlay =>
    cases overlay with
    | dropped => exact Or.inl ⟨rfl, by simp⟩
    | present state =>
      obtain ⟨_, _, _, kind⟩ := state
      cases kind with
      | range range =>
        dsimp only
        cases hmultirange : range.multirange with
        | some multirange =>
          cases hpresent : s.typeIsPresent multirange with
          | true => exact Or.inr ⟨multirange, rfl, hpresent, if_pos hpresent⟩
          | false => exact Or.inl ⟨if_neg (by simp [hpresent]), by rintro _ ⟨⟩; exact hpresent⟩
        | none =>
          cases hpresent : s.typeIsPresent (multirangeCompanionId id) with
          | true => exact Or.inr ⟨_, rfl, hpresent, by simp⟩
          | false => exact Or.inl ⟨by simp, by rintro _ ⟨⟩; exact hpresent⟩
      | _ => exact Or.inl ⟨rfl, by simp⟩

theorem flags_takeCompanion (s : AnalysisState) : Flags s.takeCompanion := by
  intro acc id hdown
  rcases takeCompanion_cases s acc id with ⟨hsame, -⟩ | ⟨companion, -, -, htake⟩
  · exact hsame
  · rw [htake] at hdown ⊢
    exact flags_takeType acc companion hdown

theorem grows_takeCompanion (s : AnalysisState) : Grows TypeFates.size s.takeCompanion := by
  intro acc id
  rcases takeCompanion_cases s acc id with ⟨hsame, -⟩ | ⟨companion, -, -, htake⟩
  · rw [hsame]
    exact ⟨Nat.le_refl _, Or.inl⟩
  · rw [htake]
    exact grows_takeType acc companion

/-- A type that is no composite stays, for want of a support that has fallen,
or goes and takes the multirange it was recorded with. -/
theorem takeDependent_cases (acc : TypeFates × Bool) (id : ObjectId)
    (hkind : ∀ fields, kind ≠ .composite fields) :
    (takeDependent acc (id, kind) = acc ∧
      (id ∈ acc.1.1 ∨ ∀ support ∈ acc.1.1, ¬kind.RestsOn False id support)) ∨
    id ∉ acc.1.1 ∧ (∃ support ∈ acc.1.1, kind.RestsOn False id support) ∧
      takeDependent acc (id, kind) =
        ((kind.recordedMultirange.toFinset ∪ insert id acc.1.1, acc.1.2), true) := by
  by_cases hid : id ∈ acc.1.1
  · exact Or.inl ⟨if_pos hid, Or.inl hid⟩
  have htake : takeType acc id = ((insert id acc.1.1, acc.1.2), true) := if_neg hid
  have hnone (fates : Finset ObjectId) : (none : Option ObjectId).toFinset ∪ fates = fates := by
    rw [Option.toFinset_none, Finset.empty_union]
  unfold takeDependent
  rw [if_neg hid]
  cases kind with
  | enum _ => exact Or.inl ⟨rfl, Or.inr fun _ _ h => h⟩
  | composite fields => exact absurd rfl (hkind fields)
  | domain state =>
    cases hmatch : typeReferenceMatchesVictims state.baseTypeId acc.1.1 with
    | true =>
      refine Or.inr ⟨hid, typeReferenceMatchesVictims_iff.mp hmatch, ?_⟩
      simp only [hmatch, if_true, htake, TypeKind.recordedMultirange, hnone]
    | false =>
      refine Or.inl ⟨by simp [hmatch], Or.inr fun support hsupport hrests => ?_⟩
      have hfound := typeReferenceMatchesVictims_iff.mpr ⟨support, hsupport, hrests⟩
      simp [hfound] at hmatch
  | range state =>
    cases hmatch : typeReferenceMatchesVictims state.subtypeId acc.1.1 with
    | true =>
      refine Or.inr ⟨hid, typeReferenceMatchesVictims_iff.mp hmatch, ?_⟩
      cases hmultirange : state.multirange with
      | none => simp [hmatch, hmultirange, TypeKind.recordedMultirange]
      | some multirange =>
        simp only [hmatch, if_true, hmultirange, TypeKind.recordedMultirange, Option.toFinset_some,
          Finset.singleton_union]
    | false =>
      refine Or.inl ⟨by simp [hmatch], Or.inr fun support hsupport hrests => ?_⟩
      have hfound := typeReferenceMatchesVictims_iff.mpr ⟨support, hsupport, hrests⟩
      simp [hfound] at hmatch
  | multirange source =>
    cases source with
    | none => exact Or.inl ⟨rfl, Or.inr fun _ _ h => by cases h⟩
    | some range =>
      by_cases hrange : range ∈ acc.1.1
      · refine Or.inr ⟨hid, ⟨range, hrange, rfl⟩, ?_⟩
        simp only [Option.any_some, hrange, decide_true, if_true, htake,
          TypeKind.recordedMultirange, hnone]
      · refine Or.inl ⟨by simp [hrange], Or.inr fun support hsupport hrests => ?_⟩
        cases hrests
        exact hrange hsupport
  | base shell options =>
    cases helement : options.element with
    | none =>
      refine Or.inl ⟨by simp [helement], Or.inr fun support _ hrests => ?_⟩
      obtain ⟨element, hof, -⟩ := hrests
      rw [helement] at hof
      cases hof
    | some element =>
      by_cases hmem : (⟨id.schema, element⟩ : ObjectId) ∈ acc.1.1
      · refine Or.inr ⟨hid, ⟨_, hmem, element, helement, Or.inl rfl⟩, ?_⟩
        simp only [helement, hmem, if_true, htake, TypeKind.recordedMultirange, hnone]
      · refine Or.inl ⟨by simp [helement, hmem], Or.inr fun support hsupport hrests => ?_⟩
        obtain ⟨other, hof, heq | ⟨hfalse, -⟩⟩ := hrests
        · rw [helement] at hof
          cases hof
          exact hmem (heq ▸ hsupport)
        · exact hfalse

theorem takeDependent_composite (acc : TypeFates × Bool) (id : ObjectId)
    (fields : List CompositeFieldState) : takeDependent acc (id, .composite fields) =
      if id ∈ acc.1.1 then acc else fields.foldl (takeMatchingField id) acc := rfl

theorem flags_takeDependent : Flags takeDependent := by
  rintro acc ⟨id, kind⟩ hdown
  by_cases hcomposite : ∃ fields, kind = .composite fields
  · obtain ⟨fields, rfl⟩ := hcomposite
    rw [takeDependent_composite] at hdown ⊢
    split
    · rfl
    · rename_i hid
      rw [if_neg hid] at hdown
      exact ((flags_takeMatchingField id).foldl fields hdown).1
  · rcases takeDependent_cases acc id (not_exists.mp hcomposite) with ⟨hsame, -⟩ | ⟨-, -, htake⟩
    · exact hsame
    · rw [htake] at hdown
      cases hdown

theorem grows_takeDependent : Grows TypeFates.size takeDependent := by
  rintro acc ⟨id, kind⟩
  by_cases hcomposite : ∃ fields, kind = .composite fields
  · obtain ⟨fields, rfl⟩ := hcomposite
    rw [takeDependent_composite]
    split
    · exact ⟨Nat.le_refl _, Or.inl⟩
    · exact (grows_takeMatchingField id).foldl fields acc
  · rcases takeDependent_cases acc id (not_exists.mp hcomposite) with ⟨hsame, -⟩ | ⟨hid, -, htake⟩
    · rw [hsame]
      exact ⟨Nat.le_refl _, Or.inl⟩
    · have hsub : (insert id acc.1.1).card ≤
          (kind.recordedMultirange.toFinset ∪ insert id acc.1.1).card :=
        Finset.card_le_card Finset.subset_union_right
      have hcard := Finset.card_insert_of_notMem hid
      rw [htake]
      unfold TypeFates.size
      dsimp only
      exact ⟨by omega, fun _ => Or.inr (by omega)⟩

/-- What a step adds to the dropped types: the type itself, which rests on a
dropped one, or the multirange it was recorded with. -/
theorem mem_takeDependent (hx : x ∈ (takeDependent acc (id, kind)).1.1) :
    x ∈ acc.1.1 ∨ id ∉ acc.1.1 ∧ (∃ support ∈ acc.1.1, kind.RestsOn False id support) ∧
      (x = id ∨ kind.recordedMultirange = some x) := by
  by_cases hcomposite : ∃ fields, kind = .composite fields
  · obtain ⟨fields, rfl⟩ := hcomposite
    rw [takeDependent_composite] at hx
    split at hx
    · exact Or.inl hx
    · rw [(foldl_takeMatchingField fields (p := (id, ""))).1] at hx
      exact Or.inl hx
  · rcases takeDependent_cases acc id (not_exists.mp hcomposite) with
      ⟨hsame, -⟩ | ⟨hid, hrests, htake⟩
    · rw [hsame] at hx
      exact Or.inl hx
    · rw [htake, Finset.mem_union, Finset.mem_insert, Option.mem_toFinset] at hx
      rcases hx with hrecorded | rfl | hx
      · exact Or.inr ⟨hid, hrests, Or.inr hrecorded⟩
      · exact Or.inr ⟨hid, hrests, Or.inl rfl⟩
      · exact Or.inl hx

/-- What a step adds to the lost fields. -/
theorem mem_takeDependent_fields {p : ObjectId × String}
    (hp : p ∈ (takeDependent acc (id, kind)).1.2) :
    p ∈ acc.1.2 ∨ id ∉ acc.1.1 ∧ ∃ fields, kind = .composite fields ∧ ∃ field ∈ fields,
      (∃ support ∈ acc.1.1, typeReferenceMatches field.dataTypeId support = true) ∧
        p = (id, field.name) := by
  by_cases hcomposite : ∃ fields, kind = .composite fields
  · obtain ⟨fields, rfl⟩ := hcomposite
    rw [takeDependent_composite] at hp
    split at hp
    · exact Or.inl hp
    · rename_i hid
      rcases (foldl_takeMatchingField fields).2.mp hp with ⟨field, hfield, hmatch, heq⟩ | hp
      · exact Or.inr ⟨hid, fields, rfl, field, hfield, typeReferenceMatchesVictims_iff.mp hmatch,
          heq⟩
      · exact Or.inl hp
  · rcases takeDependent_cases acc id (not_exists.mp hcomposite) with ⟨hsame, -⟩ | ⟨-, -, htake⟩
    · rw [hsame] at hp
      exact Or.inl hp
    · rw [htake] at hp
      exact Or.inl hp

theorem takeDependent_subset (acc : TypeFates × Bool) (entry : ObjectId × TypeKind) :
    acc.1.1 ⊆ (takeDependent acc entry).1.1 := by
  obtain ⟨id, kind⟩ := entry
  intro x hx
  by_cases hcomposite : ∃ fields, kind = .composite fields
  · obtain ⟨fields, rfl⟩ := hcomposite
    rw [takeDependent_composite]
    split
    · exact hx
    · rwa [(foldl_takeMatchingField fields (p := (id, ""))).1]
  · rcases takeDependent_cases acc id (not_exists.mp hcomposite) with ⟨hsame, -⟩ | ⟨-, -, htake⟩
    · rwa [hsame]
    · rw [htake]
      exact Finset.mem_union_right _ (Finset.mem_insert_of_mem hx)

/-- A range that a step drops leaves with the multirange it was recorded with. -/
theorem recordedMultirange_of_new {multirange : ObjectId} (hid : id ∉ acc.1.1)
    (hx : id ∈ (takeDependent acc (id, kind)).1.1)
    (hrecorded : kind.recordedMultirange = some multirange) :
    multirange ∈ (takeDependent acc (id, kind)).1.1 := by
  have hcomposite (fields : List CompositeFieldState) : kind ≠ .composite fields := by
    rintro rfl
    cases hrecorded
  rcases takeDependent_cases acc id hcomposite with ⟨hsame, -⟩ | ⟨-, -, htake⟩
  · rw [hsame] at hx
    exact absurd hx hid
  · rw [htake]
    exact Finset.mem_union_left _ (Option.mem_toFinset.mpr hrecorded)

/-- A step that changes nothing has nothing left to do for its type. -/
theorem takeDependent_fixed (hfixed : takeDependent acc (id, kind) = acc) (hdown : acc.2 = false)
    (hid : id ∉ acc.1.1) :
    (∀ support ∈ acc.1.1, ¬kind.RestsOn False id support) ∧
      ∀ fields, kind = .composite fields → ∀ field ∈ fields,
        (∃ support ∈ acc.1.1, typeReferenceMatches field.dataTypeId support = true) →
          (id, field.name) ∈ acc.1.2 := by
  by_cases hcomposite : ∃ fields, kind = .composite fields
  · obtain ⟨fields, rfl⟩ := hcomposite
    refine ⟨fun _ _ h => h, ?_⟩
    rintro _ ⟨⟩ field hfield hmatch
    rw [takeDependent_composite, if_neg hid] at hfixed
    rw [← hfixed]
    exact (foldl_takeMatchingField fields).2.mpr
      (Or.inl ⟨field, hfield, typeReferenceMatchesVictims_iff.mpr hmatch, rfl⟩)
  · refine ⟨?_, fun fields heq => absurd ⟨fields, heq⟩ hcomposite⟩
    rcases takeDependent_cases acc id (not_exists.mp hcomposite) with
      ⟨-, hmem | hnone⟩ | ⟨-, -, htake⟩
    · exact absurd hmem hid
    · exact hnone
    · rw [htake] at hfixed
      rw [← hfixed] at hdown
      cases hdown

theorem takeCompanion_fixed {companion : ObjectId} (hfixed : s.takeCompanion acc id = acc)
    (hof : s.companionOf id = some companion) (hpresent : s.typeIsPresent companion = true) :
    companion ∈ acc.1.1 := by
  rcases takeCompanion_cases s acc id with ⟨-, habsent⟩ | ⟨other, hother, -, htake⟩
  · rw [habsent companion hof] at hpresent
    cases hpresent
  · rw [hof] at hother
    cases hother
    rw [← hfixed, htake]
    exact mem_takeType.mpr (Or.inl rfl)

end Steps

end SafeMigrate
