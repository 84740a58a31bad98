import SafeMigrate.TypeFalls

/-! The rounds of a type cascade come to an end, in any order, and what they
end with is what falls. -/

namespace SafeMigrate

open Saturation

namespace AnalysisState

variable {s : AnalysisState} {victims : List ObjectId} {fates : TypeFates}

theorem mem_presentTypes {id : ObjectId} {kind : TypeKind} :
    (id, kind) ∈ s.presentTypes ↔
      ∃ state, s.types.lookup id = some (.present state) ∧ state.kind = kind := by
  simp only [presentTypes, List.mem_filterMap]
  constructor
  · rintro ⟨⟨key, overlay⟩, hentry, hkind⟩
    cases overlay with
    | dropped => cases hkind
    | present state =>
      cases hkind
      exact ⟨state, AList.mem_lookup_iff.mpr hentry, rfl⟩
  · rintro ⟨state, hstate, rfl⟩
    exact ⟨⟨id, .present state⟩, AList.mem_lookup_iff.mp hstate, rfl⟩

theorem typeIsPresent_iff {id : ObjectId} :
    s.typeIsPresent id = true ↔ ∃ state, s.types.lookup id = some (.present state) := by
  unfold typeIsPresent
  cases s.types.lookup id with
  | none => simp
  | some overlay => cases overlay <;> simp [Overlay.isPresent]

theorem companionOf_of_recorded {id multirange : ObjectId} {state : TypeState}
    (hstate : s.types.lookup id = some (.present state))
    (hrecorded : state.kind.recordedMultirange = some multirange) :
    s.companionOf id = some multirange := by
  unfold companionOf
  rw [hstate]
  obtain ⟨_, _, _, kind⟩ := state
  cases kind with
  | range range => simp_all [TypeKind.recordedMultirange]
  | _ => cases hrecorded

section Rounds

variable (order : IterationOrder s) (n : Nat)

/-- What each step of a round keeps, the round keeps. -/
theorem cascadeRound_keeps {P : TypeFates × Bool → Prop} (hstart : P (fates, false))
    (hcompanion : ∀ acc, P acc → ∀ id ∈ fates.1, P (s.takeCompanion acc id))
    (hdependent : ∀ acc, P acc → ∀ id state, s.types.lookup id = some (.present state) →
      P (takeDependent acc (id, state.kind))) : P (s.cascadeRound order n fates) := by
  unfold cascadeRound
  refine List.foldlRecOn (order.present n) _ ?_ fun acc hacc entry hentry => ?_
  · refine List.foldlRecOn _ _ hstart fun acc hacc id hid => ?_
    exact hcompanion acc hacc id ((order.mem_victims n fates.1 id).mp hid)
  · obtain ⟨id, kind⟩ := entry
    obtain ⟨state, hstate, rfl⟩ := mem_presentTypes.mp ((order.perm_present n).mem_iff.mp hentry)
    exact hdependent acc hacc id state hstate

theorem cascadeRound_grows (fates : TypeFates) (hup : (s.cascadeRound order n fates).2 = true) :
    fates.size < (s.cascadeRound order n fates).1.size := by
  have hcompanions := (grows_takeCompanion s).foldl (order.victims n fates.1) (fates, false)
  have hdependents := grows_takeDependent.foldl (order.present n)
    ((order.victims n fates.1).foldl s.takeCompanion (fates, false))
  unfold cascadeRound at hup ⊢
  rcases hdependents.2 hup with hmid | hlt
  · rcases hcompanions.2 hmid with hstart | hlt
    · cases hstart
    · exact Nat.lt_of_lt_of_le hlt hdependents.1
  · exact Nat.lt_of_le_of_lt hcompanions.1 hlt

end Rounds

/-- No rule of the rounds has anything left to do. -/
structure CascadeSettled (s : AnalysisState) (fates : TypeFates) : Prop where
  companions : ∀ id ∈ fates.1, ∀ multirange, s.companionOf id = some multirange →
    s.typeIsPresent multirange = true → multirange ∈ fates.1
  rests : ∀ id state, s.types.lookup id = some (.present state) → ∀ support ∈ fates.1,
    state.kind.RestsOn False id support → id ∈ fates.1
  fields : ∀ id state fields, s.types.lookup id = some (.present state) →
    state.kind = .composite fields → id ∉ fates.1 → ∀ field ∈ fields, ∀ support ∈ fates.1,
      typeReferenceMatches field.dataTypeId support = true → (id, field.name) ∈ fates.2

/-- A round that leaves the flag down has changed nothing, and had nothing to do. -/
theorem cascadeRound_settled {order : IterationOrder s} {n : Nat} {u : TypeFates}
    (hround : s.cascadeRound order n u = (fates, false)) : fates = u ∧ s.CascadeSettled u := by
  have hdown : (s.cascadeRound order n u).2 = false := by rw [hround]
  unfold cascadeRound at hround hdown
  obtain ⟨hsame, hdependents⟩ := flags_takeDependent.foldl (order.present n) hdown
  rw [hsame] at hround hdown
  obtain ⟨hstart, hcompanions⟩ := (flags_takeCompanion s).foldl (order.victims n u.1) hdown
  rw [hstart] at hround hdependents
  have hentry {id : ObjectId} {state : TypeState}
      (hstate : s.types.lookup id = some (.present state)) (hid : id ∉ u.1) :=
    takeDependent_fixed (hdependents (id, state.kind) ((order.perm_present n).mem_iff.mpr
      (mem_presentTypes.mpr ⟨state, hstate, rfl⟩))) rfl hid
  refine ⟨(congrArg Prod.fst hround).symm, ⟨fun id hid multirange hof hpresent => ?_,
    fun id state hstate support hsupport hrests => ?_,
    fun id state fields hstate hkind hid field hfield support hsupport hmatch => ?_⟩⟩
  · exact takeCompanion_fixed (hcompanions id ((order.mem_victims n u.1 id).mpr hid)) hof hpresent
  · by_contra hid
    exact (hentry hstate hid).1 support hsupport hrests
  · exact (hentry hstate hid).2 fields hkind field hfield ⟨support, hsupport, hmatch⟩

/-- All that has fallen could fall. -/
structure WithinCatalog (s : AnalysisState) (victims : List ObjectId) (fates : TypeFates) :
    Prop where
  types : fates.1 ⊆ s.fallingTypes victims
  fields : fates.2 ⊆ s.fallingFields

theorem mem_fallingTypes_of_present {id : ObjectId} {state : TypeState}
    (hstate : s.types.lookup id = some (.present state)) : id ∈ s.fallingTypes victims := by
  have hmem := List.mem_map_of_mem (f := Prod.fst) (mem_presentTypes.mpr ⟨state, hstate, rfl⟩)
  exact Finset.mem_union_left _ (Finset.mem_union_right _ (List.mem_toFinset.mpr hmem))

theorem WithinCatalog.takeCompanion {acc : TypeFates × Bool} (h : s.WithinCatalog victims acc.1)
    (id : ObjectId) : s.WithinCatalog victims (s.takeCompanion acc id).1 := by
  rcases takeCompanion_cases s acc id with ⟨hsame, -⟩ | ⟨companion, -, hpresent, htake⟩
  · rw [hsame]
    exact h
  · rw [htake]
    refine ⟨fun x hx => ?_, by rw [takeType_fields]; exact h.fields⟩
    rcases mem_takeType.mp hx with rfl | hx
    · obtain ⟨state, hstate⟩ := typeIsPresent_iff.mp hpresent
      exact mem_fallingTypes_of_present hstate
    · exact h.types hx

theorem WithinCatalog.takeDependent {acc : TypeFates × Bool} (h : s.WithinCatalog victims acc.1)
    {id : ObjectId} {state : TypeState} (hstate : s.types.lookup id = some (.present state)) :
    s.WithinCatalog victims (takeDependent acc (id, state.kind)).1 := by
  have hentry := mem_presentTypes.mpr ⟨state, hstate, rfl⟩
  refine ⟨fun x hx => ?_, fun p hp => ?_⟩
  · rcases mem_takeDependent hx with hx | ⟨-, -, rfl | hrecorded⟩
    · exact h.types hx
    · exact mem_fallingTypes_of_present hstate
    · exact Finset.mem_union_right _ (List.mem_toFinset.mpr
        (List.mem_filterMap.mpr ⟨_, hentry, hrecorded⟩))
  · rcases mem_takeDependent_fields hp with hp | ⟨-, fields, hkind, field, hfield, -, rfl⟩
    · exact h.fields hp
    · refine List.mem_toFinset.mpr (List.mem_flatMap.mpr ⟨_, hentry, ?_⟩)
      rw [hkind]
      exact List.mem_map_of_mem hfield

/-- The rounds come to an end. What they end with is settled, and has what they keep. -/
theorem typeCascadeClosure_spec (order : IterationOrder s) {P : TypeFates → Prop}
    (hstart : P (victims.toFinset, ∅))
    (hkeep : ∀ n fates, P fates → P (s.cascadeRound order n fates).1) :
    ∃ fates, s.typeCascadeClosure order victims = some fates ∧ P fates ∧ s.CascadeSettled fates := by
  have hstep (n : Nat) (fates : TypeFates) (h : P fates ∧ s.WithinCatalog victims fates) :
      P (s.cascadeRound order n fates).1 ∧
        s.WithinCatalog victims (s.cascadeRound order n fates).1 := by
    refine ⟨hkeep n fates h.1, ?_⟩
    exact cascadeRound_keeps order n (P := fun acc => s.WithinCatalog victims acc.1) h.2
      (fun acc hacc id _ => hacc.takeCompanion id) (fun acc hacc id state => hacc.takeDependent)
  have hfrom : s.WithinCatalog victims (victims.toFinset, ∅) :=
    ⟨fun x hx => Finset.mem_union_left _ (Finset.mem_union_left _ hx), Finset.empty_subset _⟩
  have hbound (fates : TypeFates) (h : P fates ∧ s.WithinCatalog victims fates) :
      fates.size ≤ (s.fallingTypes victims).card + s.fallingFields.card := by
    have htypes := Finset.card_le_card h.2.types
    have hfields := Finset.card_le_card h.2.fields
    unfold TypeFates.size
    omega
  obtain ⟨fates, hrun, ⟨hP, -⟩, n, u, -, hround⟩ := saturate_spec hstep
    (fun n fates => cascadeRound_grows order n fates) hbound ⟨hstart, hfrom⟩
    (show _ < s.typeCascadeFuel victims + _ by unfold typeCascadeFuel; omega) (n := 0)
  obtain ⟨rfl, hsettled⟩ := cascadeRound_settled hround
  exact ⟨fates, hrun, hP, hsettled⟩

end AnalysisState

end SafeMigrate
