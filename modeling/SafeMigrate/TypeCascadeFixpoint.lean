import SafeMigrate.TypeCascadeRuns

/-! Whether a type cascade drops what falls with its victims, and that only. A
range that another type takes with it takes its recorded multirange along
unseen, and the element of a base type is not looked up among array types. -/

namespace SafeMigrate

open Saturation

namespace AnalysisState

/-- The cascade ends, in every order, with the types that fall with the victims
and with the fields of their types in the composites that stay. -/
def CascadeCorrect (s : AnalysisState) (victims : List ObjectId) : Prop :=
  ∀ order : IterationOrder s, ∃ fates, s.typeCascadeClosure order victims = some fates ∧
    (∀ id, id ∈ fates.1 ↔ s.Falls True victims id) ∧
    ∀ id name, (id, name) ∈ fates.2 ↔
      s.HasFallingField True victims id name ∧ ¬s.Falls True victims id

/-- No rule that the rounds lack, and no multirange they take unseen, would
make a difference. -/
structure CascadeSafe (s : AnalysisState) (victims : List ObjectId) : Prop where
  multiranges : ∀ id state multirange support, s.types.lookup id = some (.present state) →
    state.kind.recordedMultirange = some multirange → id ∉ victims →
      s.Falls False victims support → state.kind.RestsOn False id support →
        s.typeIsPresent multirange = true ∨ multirange ∈ victims
  elements : ∀ id state support, s.types.lookup id = some (.present state) →
    s.Falls False victims support → state.kind.RestsOn True id support → s.Falls False victims id
  composites : ∀ id name, s.HasFallingField False victims id name → s.Falls False victims id →
    id ∈ victims

/-- The multirange of a present range is present as one, if at all. -/
def CompanionsAreMultiranges (s : AnalysisState) : Prop :=
  ∀ id companion state, s.companionOf id = some companion →
    s.types.lookup companion = some (.present state) → ∃ range, state.kind = .multirange range

variable {s : AnalysisState} {victims : List ObjectId} {fates : TypeFates}

theorem Falls.present_or_victim {wide : Prop} {id : ObjectId} (h : s.Falls wide victims id) :
    s.typeIsPresent id = true ∨ id ∈ victims := by
  cases h with
  | victim hid => exact Or.inr hid
  | companion _ _ hpresent => exact Or.inl hpresent
  | rests hstate _ _ => exact Or.inl (typeIsPresent_iff.mpr ⟨_, hstate⟩)

theorem restsOn_widen {kind : TypeKind} {id support : ObjectId}
    (h : kind.RestsOn False id support) : kind.RestsOn True id support := by
  cases kind with
  | base _ options =>
    obtain ⟨element, helement, heq | ⟨hfalse, -⟩⟩ := h
    · exact ⟨element, helement, Or.inl heq⟩
    · exact hfalse.elim
  | _ => exact h

theorem Falls.widen {id : ObjectId} (h : s.Falls False victims id) : s.Falls True victims id := by
  induction h with
  | victim hid => exact .victim hid
  | companion _ hof hpresent ih => exact .companion ih hof hpresent
  | rests hstate _ hrests ih => exact .rests hstate ih (restsOn_widen hrests)

theorem CascadeSafe.falls_iff (h : s.CascadeSafe victims) {id : ObjectId} :
    s.Falls True victims id ↔ s.Falls False victims id := by
  refine ⟨fun hid => ?_, Falls.widen⟩
  induction hid with
  | victim hid => exact .victim hid
  | companion _ hof hpresent ih => exact .companion ih hof hpresent
  | rests hstate _ hrests ih => exact h.elements _ _ _ hstate ih hrests

/-- The multirange that a falling range was recorded with falls, if it is there
or a victim. -/
theorem Falls.recordedMultirange {id multirange : ObjectId} {state : TypeState}
    (h : s.Falls False victims id) (hstate : s.types.lookup id = some (.present state))
    (hrecorded : state.kind.recordedMultirange = some multirange)
    (hfound : s.typeIsPresent multirange = true ∨ multirange ∈ victims) :
    s.Falls False victims multirange := by
  rcases hfound with hpresent | hvictim
  · exact .companion h (companionOf_of_recorded hstate hrecorded) hpresent
  · exact .victim hvictim

/-- All that the rounds have taken is accounted for. -/
structure Accounted (s : AnalysisState) (victims : List ObjectId) (fates : TypeFates) : Prop where
  begun : ∀ id ∈ victims, id ∈ fates.1
  types : ∀ id ∈ fates.1, s.Falls False victims id
  fields : ∀ p ∈ fates.2, s.HasFallingField False victims p.1 p.2 ∧ p.1 ∉ victims

theorem Accounted.takeCompanion {acc : TypeFates × Bool} (h : s.Accounted victims acc.1)
    {id : ObjectId} (hid : s.Falls False victims id) :
    s.Accounted victims (s.takeCompanion acc id).1 := by
  rcases takeCompanion_cases s acc id with ⟨hsame, -⟩ | ⟨companion, hof, hpresent, htake⟩
  · rw [hsame]
    exact h
  · rw [htake]
    refine ⟨fun x hx => mem_takeType.mpr (Or.inr (h.begun x hx)), fun x hx => ?_,
      by rw [takeType_fields]; exact h.fields⟩
    rcases mem_takeType.mp hx with rfl | hx
    · exact .companion hid hof hpresent
    · exact h.types x hx

theorem Accounted.takeDependent {acc : TypeFates × Bool} (h : s.Accounted victims acc.1)
    (hsafe : s.CascadeSafe victims) {id : ObjectId} {state : TypeState}
    (hstate : s.types.lookup id = some (.present state)) :
    s.Accounted victims (takeDependent acc (id, state.kind)).1 := by
  refine ⟨fun x hx => takeDependent_subset acc _ (h.begun x hx), fun x hx => ?_, fun p hp => ?_⟩
  · rcases mem_takeDependent hx with hx | ⟨hid, ⟨support, hsupport, hrests⟩, hof⟩
    · exact h.types x hx
    · have hfalls : s.Falls False victims id := .rests hstate (h.types support hsupport) hrests
      rcases hof with rfl | hrecorded
      · exact hfalls
      · have hfound := hsafe.multiranges id state x support hstate hrecorded
          (fun hvictim => hid (h.begun id hvictim)) (h.types support hsupport) hrests
        exact hfalls.recordedMultirange hstate hrecorded hfound
  · rcases mem_takeDependent_fields hp with hp | ⟨hid, fields, hkind, field, hfield, hmatch, rfl⟩
    · exact h.fields p hp
    · obtain ⟨support, hsupport, hmatch⟩ := hmatch
      exact ⟨⟨state, fields, hstate, hkind, field, hfield, rfl, support, h.types support hsupport,
        hmatch⟩, fun hvictim => hid (h.begun id hvictim)⟩

/-- What is settled and holds the victims holds all that falls. -/
theorem CascadeSettled.falls (h : s.CascadeSettled fates) (hvictims : ∀ id ∈ victims, id ∈ fates.1)
    {id : ObjectId} (hid : s.Falls False victims id) : id ∈ fates.1 := by
  induction hid with
  | victim hid => exact hvictims _ hid
  | companion _ hof hpresent ih => exact h.companions _ ih _ hof hpresent
  | rests hstate _ hrests ih => exact h.rests _ _ hstate _ ih hrests

theorem hasFallingField_iff (h : s.CascadeSafe victims) {id : ObjectId} {name : String} :
    s.HasFallingField True victims id name ↔ s.HasFallingField False victims id name := by
  unfold HasFallingField
  simp only [h.falls_iff]

theorem CascadeSafe.correct (h : s.CascadeSafe victims) : s.CascadeCorrect victims := by
  intro order
  have hstart : s.Accounted victims (victims.toFinset, ∅) :=
    ⟨fun id hid => List.mem_toFinset.mpr hid, fun id hid => .victim (List.mem_toFinset.mp hid),
      fun p hp => absurd hp (Finset.notMem_empty p)⟩
  obtain ⟨fates, hrun, haccounted, hsettled⟩ := typeCascadeClosure_spec order hstart
    fun n fates hfates => cascadeRound_keeps order n (P := fun acc => s.Accounted victims acc.1)
      hfates (fun acc hacc id hid => hacc.takeCompanion (hfates.types id hid))
      fun acc hacc id state hstate => hacc.takeDependent h hstate
  have htypes (id : ObjectId) : id ∈ fates.1 ↔ s.Falls True victims id := by
    rw [h.falls_iff]
    exact ⟨haccounted.types id, hsettled.falls haccounted.begun⟩
  refine ⟨fates, hrun, htypes, fun id name => ?_⟩
  rw [← htypes, hasFallingField_iff h]
  constructor
  · intro hp
    obtain ⟨hfield, hvictim⟩ := haccounted.fields _ hp
    exact ⟨hfield, fun hid => hvictim (h.composites id name hfield (haccounted.types id hid))⟩
  · rintro ⟨⟨state, fields, hstate, hkind, field, hfield, rfl, support, hsupport, hmatch⟩, hid⟩
    exact hsettled.fields id state fields hstate hkind hid field hfield support
      (hsettled.falls haccounted.begun hsupport) hmatch

/-- Whatever the rounds took falls, if they took nothing but what falls in the
wider sense. -/
theorem falls_of_correct (order : IterationOrder s) (n : Nat)
    (h : (∀ id ∈ fates.1, s.Falls True victims id) → ∀ id ∈ fates.1, s.Falls False victims id) :
    let round := (s.cascadeRound order n fates).1
    (∀ id ∈ round.1, s.Falls True victims id) → ∀ id ∈ round.1, s.Falls False victims id := by
  have hround := cascadeRound_keeps order n (P := fun acc => fates.1 ⊆ acc.1.1 ∧
    ((∀ id ∈ acc.1.1, s.Falls True victims id) → ∀ id ∈ acc.1.1, s.Falls False victims id))
    ⟨Finset.Subset.refl _, h⟩ (fun acc ⟨hsub, hacc⟩ id hid => ?_)
    fun acc ⟨hsub, hacc⟩ id state hstate => ⟨hsub.trans (takeDependent_subset acc _), ?_⟩
  · exact hround.2
  · rcases takeCompanion_cases s acc id with ⟨hsame, -⟩ | ⟨companion, hof, hpresent, htake⟩
    · rw [hsame]
      exact ⟨hsub, hacc⟩
    · rw [htake]
      refine ⟨fun x hx => mem_takeType.mpr (Or.inr (hsub hx)), fun hwide x hx => ?_⟩
      have hold := hacc fun y hy => hwide y (mem_takeType.mpr (Or.inr hy))
      rcases mem_takeType.mp hx with rfl | hx
      · exact .companion (hold id (hsub hid)) hof hpresent
      · exact hold x hx
  · intro hwide x hx
    have hold := hacc fun y hy => hwide y (takeDependent_subset acc _ hy)
    rcases mem_takeDependent hx with hmem | ⟨-, ⟨support, hsupport, hrests⟩, hof⟩
    · exact hold x hmem
    · have hfalls : s.Falls False victims id := .rests hstate (hold support hsupport) hrests
      rcases hof with rfl | hrecorded
      · exact hfalls
      · exact hfalls.recordedMultirange hstate hrecorded (hwide x hx).present_or_victim

/-- The ranges that the rounds took, other than victims, are gone together with
the multiranges they were recorded with. -/
def TakesRecorded (s : AnalysisState) (victims : List ObjectId) (fates : TypeFates) : Prop :=
  ∀ id ∈ fates.1, id ∉ victims → ∀ state, s.types.lookup id = some (.present state) →
    ∀ multirange, state.kind.recordedMultirange = some multirange → multirange ∈ fates.1

theorem CompanionsAreMultiranges.takesRecorded (h : s.CompanionsAreMultiranges)
    (order : IterationOrder s) (n : Nat) (hfates : s.TakesRecorded victims fates) :
    s.TakesRecorded victims (s.cascadeRound order n fates).1 := by
  have hcompanion {id companion multirange : ObjectId} {state : TypeState}
      (hof : s.companionOf id = some companion)
      (hstate : s.types.lookup companion = some (.present state)) :
      state.kind.recordedMultirange ≠ some multirange := by
    obtain ⟨range, hkind⟩ := h id companion state hof hstate
    rw [hkind]
    exact (Option.some_ne_none multirange).symm
  refine cascadeRound_keeps order n (P := fun acc => s.TakesRecorded victims acc.1) hfates
    (fun acc hacc id _ => ?_) fun acc hacc id state hstate => ?_
  · rcases takeCompanion_cases s acc id with ⟨hsame, -⟩ | ⟨companion, hof, -, htake⟩
    · rw [hsame]
      exact hacc
    · rw [htake]
      intro x hx hvictim xstate hxstate multirange hrecorded
      rcases mem_takeType.mp hx with rfl | hx
      · exact absurd hrecorded (hcompanion hof hxstate)
      · exact mem_takeType.mpr (Or.inr (hacc x hx hvictim xstate hxstate multirange hrecorded))
  · intro x hx hvictim xstate hxstate multirange hrecorded
    rcases mem_takeDependent hx with hmem | ⟨hid, -, rfl | hof⟩
    · exact takeDependent_subset acc _ (hacc x hmem hvictim xstate hxstate multirange hrecorded)
    · rw [hstate] at hxstate
      cases hxstate
      exact recordedMultirange_of_new hid hx hrecorded
    · exact absurd hrecorded (hcompanion (companionOf_of_recorded hstate hof) hxstate)

/-- The order in which the sets are listed. -/
noncomputable def listed (s : AnalysisState) : IterationOrder s where
  victims := fun _ dropped => dropped.toList
  present := fun _ => s.presentTypes
  mem_victims := fun _ _ _ => Finset.mem_toList
  perm_present := fun _ => .refl _

theorem CompanionsAreMultiranges.safe (h : s.CompanionsAreMultiranges)
    (hcorrect : s.CascadeCorrect victims) : s.CascadeSafe victims := by
  obtain ⟨fates, hrun, htypes, -⟩ := hcorrect s.listed
  have hstart : s.TakesRecorded victims (victims.toFinset, ∅) :=
    fun id hid hvictim => absurd (List.mem_toFinset.mp hid) hvictim
  obtain ⟨result, hresult, ⟨htakes, hnarrow⟩, hsettled⟩ := typeCascadeClosure_spec s.listed
    (P := fun fates => s.TakesRecorded victims fates ∧
      ((∀ id ∈ fates.1, s.Falls True victims id) → ∀ id ∈ fates.1, s.Falls False victims id))
    ⟨hstart, fun _ id hid => .victim (List.mem_toFinset.mp hid)⟩
    fun n fates hfates => ⟨h.takesRecorded s.listed n hfates.1, falls_of_correct s.listed n hfates.2⟩
  rw [hrun] at hresult
  cases hresult
  have hfalls (id : ObjectId) (hid : s.Falls True victims id) : s.Falls False victims id :=
    hnarrow (fun id hid => (htypes id).mp hid) id ((htypes id).mpr hid)
  refine ⟨fun id state multirange support hstate hrecorded hvictim hsupport hrests => ?_,
    fun id state support hstate hsupport hrests => ?_, fun id name hfield hid => ?_⟩
  · have hid : s.Falls False victims id := .rests hstate hsupport hrests
    have hmem := htakes id ((htypes id).mpr hid.widen) hvictim state hstate multirange hrecorded
    exact ((htypes multirange).mp hmem).present_or_victim
  · exact hfalls id (.rests hstate hsupport.widen hrests)
  · obtain ⟨state, fields, hstate, hkind, -⟩ := hfield
    cases hid with
    | victim hvictim => exact hvictim
    | companion _ hof _ =>
      obtain ⟨range, hmultirange⟩ := h _ _ state hof hstate
      rw [hkind] at hmultirange
      cases hmultirange
    | rests hother _ hrests =>
      rw [hstate] at hother
      cases hother
      rw [hkind] at hrests
      exact hrests.elim

/-- The cascade is right where no multirange is taken unseen and no array type
is missed, and, in a catalog whose companions are multiranges, only there. -/
theorem typeCascadeClosure_correct_iff (s : AnalysisState) (victims : List ObjectId) :
    (s.CascadeSafe victims → s.CascadeCorrect victims) ∧
      (s.CompanionsAreMultiranges → s.CascadeCorrect victims → s.CascadeSafe victims) ∧
        ∀ order : IterationOrder s, s.typeCascadeClosure order victims ≠ none := by
  refine ⟨CascadeSafe.correct, CompanionsAreMultiranges.safe, fun order => ?_⟩
  have hstart : (fun _ : TypeFates => True) (victims.toFinset, ∅) := trivial
  obtain ⟨fates, hrun, -⟩ := typeCascadeClosure_spec order (P := fun _ => True) hstart
    fun _ _ _ => trivial
  rw [hrun]
  exact Option.some_ne_none fates

end AnalysisState

section Sample

def measure : ObjectId := ⟨"app", "measure"⟩

def span : ObjectId := ⟨"app", "span"⟩

/-- The multirange of the range was put into a schema of its own. -/
def spans : ObjectId := ⟨"ranges", "spans"⟩

def sampleType (id : ObjectId) (kind : TypeKind) : TypeOverlay :=
  .present { id, generation := 0, owner := ⟨"", "owner"⟩, kind }

def spanKind : TypeKind :=
  .range { subtype := some "measure", subtypeId := some measure, multirange := some spans,
           collation := none, collationId := none, opclass := none, opclassId := none,
           canonical := none, canonicalId := none, subtypeDiff := none, subtypeDiffId := none }

/-- A range over an enumeration, in a catalog that does not cover the schema of
its multirange. -/
def outOfScope : AnalysisState :=
  { types := ((∅ : KeyedMap ObjectId TypeOverlay).insert measure
      (sampleType measure (.enum ["m", "km"]))).insert span (sampleType span spanKind) }

/-- The same catalog with that schema. -/
def inScope : AnalysisState :=
  { types := outOfScope.types.insert spans (sampleType spans (.multirange (some span))) }

theorem lookup_inScope {id : ObjectId} {state : TypeState}
    (h : inScope.types.lookup id = some (.present state)) :
    id = spans ∧ state.kind = .multirange (some span) ∨ id = span ∧ state.kind = spanKind ∨
      id = measure ∧ state.kind = .enum ["m", "km"] := by
  by_cases hspans : id = spans
  · rw [hspans, inScope, AList.lookup_insert] at h
    cases h
    exact Or.inl ⟨hspans, rfl⟩
  rw [inScope, AList.lookup_insert_ne hspans, outOfScope] at h
  by_cases hspan : id = span
  · rw [hspan, AList.lookup_insert] at h
    cases h
    exact Or.inr (Or.inl ⟨hspan, rfl⟩)
  rw [AList.lookup_insert_ne hspan] at h
  by_cases hmeasure : id = measure
  · rw [hmeasure, AList.lookup_insert] at h
    cases h
    exact Or.inr (Or.inr ⟨hmeasure, rfl⟩)
  · rw [AList.lookup_insert_ne hmeasure] at h
    cases h

theorem inScope_correct : inScope.CascadeCorrect [measure] := by
  refine (AnalysisState.typeCascadeClosure_correct_iff inScope [measure]).1
    ⟨fun id state multirange support hstate hrecorded _ _ _ => Or.inl ?_,
      fun id state support hstate hsupport hrests => ?_, fun id name hfield _ => ?_⟩
  · rcases lookup_inScope hstate with ⟨-, hkind⟩ | ⟨-, hkind⟩ | ⟨-, hkind⟩
    · rw [hkind] at hrecorded
      cases hrecorded
    · rw [hkind] at hrecorded
      cases hrecorded
      decide +kernel
    · rw [hkind] at hrecorded
      cases hrecorded
  · refine .rests hstate hsupport ?_
    rcases lookup_inScope hstate with ⟨-, hkind⟩ | ⟨-, hkind⟩ | ⟨-, hkind⟩ <;>
      rw [hkind] at hrests ⊢ <;> exact hrests
  · obtain ⟨state, fields, hstate, hcomposite, -⟩ := hfield
    rcases lookup_inScope hstate with ⟨-, hkind⟩ | ⟨-, hkind⟩ | ⟨-, hkind⟩ <;>
      rw [hkind] at hcomposite <;> cases hcomposite

/-- Dropping the enumeration drops the range, and with it a type that is not
there. -/
theorem outOfScope_not_correct : ¬outOfScope.CascadeCorrect [measure] := by
  intro hcorrect
  have hcompanions : outOfScope.CompanionsAreMultiranges := by
    intro id companion state hof hstate
    by_cases hspan : id = span
    · have hspans : outOfScope.companionOf span = some spans := by decide +kernel
      have habsent : outOfScope.types.lookup spans = none := by decide +kernel
      rw [hspan, hspans] at hof
      cases hof
      rw [habsent] at hstate
      cases hstate
    · by_cases hmeasure : id = measure
      · have hnone : outOfScope.companionOf measure = none := by decide +kernel
        rw [hmeasure, hnone] at hof
        cases hof
      · rw [AnalysisState.companionOf, outOfScope, AList.lookup_insert_ne hspan,
          AList.lookup_insert_ne hmeasure] at hof
        cases hof
  have hspan : ∃ state, outOfScope.types.lookup span = some (.present state) ∧
      state.kind = spanKind := ⟨_, AList.lookup_insert _, rfl⟩
  obtain ⟨state, hstate, hkind⟩ := hspan
  have hfound := (hcompanions.safe hcorrect).multiranges span state spans measure hstate
    (by rw [hkind]; rfl) (by decide) (.victim (by decide)) (by rw [hkind]; rfl)
  revert hfound
  decide +kernel

end Sample

end SafeMigrate
