import SafeMigrate.Privileges

/-! Grants, grant options and their provenance over runs of `GRANT` and
`REVOKE`: each privilege has a grantor on record, and each option. -/

namespace SafeMigrate

open MapEdits

namespace PrivilegeMatrix

def granted (m : PrivilegeMatrix) (role : ObjectId) : Finset Privilege := (m.grants.lookup role).getD ∅

def options (m : PrivilegeMatrix) (role : ObjectId) : Finset Privilege :=
  (m.grantOptions.lookup role).getD ∅

def sources (m : PrivilegeMatrix) (key : ObjectId × Privilege) : Finset ObjectId :=
  (m.grantors.lookup key).getD ∅

def optionSources (m : PrivilegeMatrix) (key : ObjectId × Privilege) : Finset ObjectId :=
  (m.grantOptionGrantors.lookup key).getD ∅

/-- Privileges and grant options are those with a grantor on record, and an
option implies its privilege. -/
structure Coherent (m : PrivilegeMatrix) : Prop where
  options_iff : ∀ role privilege, privilege ∈ m.options role ↔
    (m.optionSources (role, privilege)).Nonempty
  granted_iff : ∀ role privilege, privilege ∈ m.granted role ↔ (m.sources (role, privilege)).Nonempty
  granted_of_option : ∀ role privilege, privilege ∈ m.options role → privilege ∈ m.granted role

/-- Who granted an option granted the privilege, too. -/
structure Sourced (m : PrivilegeMatrix) : Prop where
  options_iff : ∀ role privilege, privilege ∈ m.options role ↔
    (m.optionSources (role, privilege)).Nonempty
  granted_iff : ∀ role privilege, privilege ∈ m.granted role ↔ (m.sources (role, privilege)).Nonempty
  granting : ∀ key, m.optionSources key ⊆ m.sources key

/-- The same maps in another iteration order. -/
structure SameMaps (m m' : PrivilegeMatrix) : Prop where
  grants : ∀ role, m'.grants.lookup role = m.grants.lookup role
  grantOptions : ∀ role, m'.grantOptions.lookup role = m.grantOptions.lookup role
  grantors : ∀ key, m'.grantors.lookup key = m.grantors.lookup key
  grantOptionGrantors : ∀ key, m'.grantOptionGrantors.lookup key = m.grantOptionGrantors.lookup key

variable {m m' : PrivilegeMatrix}

theorem Sourced.coherent (h : m.Sourced) : m.Coherent where
  options_iff := h.options_iff
  granted_iff := h.granted_iff
  granted_of_option role privilege hoption := by
    rw [h.options_iff] at hoption
    rw [h.granted_iff]
    exact hoption.mono (h.granting _)

theorem sourced_empty : ({} : PrivilegeMatrix).Sourced := by
  constructor <;> intros <;> simp_all [options, granted, optionSources, sources]

theorem Sourced.sameMaps (h : m.Sourced) (hsame : m.SameMaps m') : m'.Sourced := by
  constructor
  · simpa only [options, optionSources, hsame.grantOptions, hsame.grantOptionGrantors]
      using h.options_iff
  · simpa only [granted, sources, hsame.grants, hsame.grantors] using h.granted_iff
  · simpa only [optionSources, sources, hsame.grantors, hsame.grantOptionGrantors] using h.granting

section Views

theorem getD_bind_without (found : Option (Finset ObjectId)) (grantor : ObjectId) :
    (found.bind (GrantSources.without grantor)).getD ∅ = (found.getD ∅).erase grantor := by
  cases found with
  | none => rfl
  | some found =>
    simp only [Option.bind_some, Option.getD_some, GrantSources.without]
    split
    · rename_i hempty
      rw [hempty]
      rfl
    · rfl

theorem isNone_bind_without (found : Option (Finset ObjectId)) (grantor : ObjectId) :
    (found.bind (GrantSources.without grantor)).isNone = true ↔ (found.getD ∅).erase grantor = ∅ := by
  cases found with
  | none => simp
  | some found =>
    simp only [Option.bind_some, Option.getD_some, GrantSources.without]
    split
    · rename_i hempty
      simp [hempty]
    · rename_i hleft
      simp [hleft]

theorem getD_withdraw (sources : GrantSources) (key key' : ObjectId × Privilege)
    (grantor : ObjectId) : ((GrantSources.withdraw sources key grantor).lookup key').getD ∅ =
      if key' = key then ((sources.lookup key').getD ∅).erase grantor
      else (sources.lookup key').getD ∅ := by
  rw [GrantSources.withdraw, lookup_editAt]
  split
  · exact getD_bind_without _ _
  · rfl

theorem getD_record (sources : GrantSources) (key key' : ObjectId × Privilege) (grantor : ObjectId) :
    ((GrantSources.record sources key grantor).lookup key').getD ∅ =
      if key' = key then insert grantor ((sources.lookup key').getD ∅)
      else (sources.lookup key').getD ∅ := by
  rw [GrantSources.record]
  by_cases hkey : key' = key
  · rw [if_pos hkey, hkey, AList.lookup_insert]
    rfl
  · rw [if_neg hkey, AList.lookup_insert_ne hkey]

theorem getD_extend (sets : PrivilegeSets) (role role' : ObjectId) (privileges : Finset Privilege) :
    ((PrivilegeSets.extend sets role privileges).lookup role').getD ∅ =
      if role' = role then (sets.lookup role').getD ∅ ∪ privileges else (sets.lookup role').getD ∅ := by
  rw [PrivilegeSets.extend]
  by_cases hrole : role' = role
  · rw [if_pos hrole, hrole, AList.lookup_insert]
    rfl
  · rw [if_neg hrole, AList.lookup_insert_ne hrole]

theorem getD_remove (sets : PrivilegeSets) (role role' : ObjectId) (privilege : Privilege) :
    ((PrivilegeSets.remove sets role privilege).lookup role').getD ∅ =
      if role' = role then ((sets.lookup role').getD ∅).erase privilege
      else (sets.lookup role').getD ∅ := by
  rw [PrivilegeSets.remove, lookup_editAt]
  split
  · cases sets.lookup role' <;> rfl
  · rfl

theorem getD_withdrawAll (sets : PrivilegeSets) (role role' : ObjectId)
    {privileges : Finset Privilege} (hall : .all ∉ privileges) :
    ((PrivilegeSets.withdraw sets role privileges).lookup role').getD ∅ =
      if role' = role then (sets.lookup role').getD ∅ \ privileges
      else (sets.lookup role').getD ∅ := by
  rw [PrivilegeSets.withdraw, lookup_editAt]
  simp only [if_neg hall]
  split
  · cases sets.lookup role' <;> simp
  · rfl

theorem isNamed_iff {role : ObjectId} {privileges : Finset Privilege} (hall : .all ∉ privileges)
    {key : ObjectId × Privilege} :
    isNamed role privileges key = true ↔ key.1 = role ∧ key.2 ∈ privileges := by
  simp [isNamed, hall]

end Views

section Steps

variable (role grantor : ObjectId) (privilege : Privilege)

theorem isLastSource_iff (sources : GrantSources) (key : ObjectId × Privilege) :
    isLastSource sources key grantor = true ↔ ((sources.lookup key).getD ∅).erase grantor = ∅ :=
  isNone_bind_without _ _

@[simp] theorem sources_revokeSource (m : PrivilegeMatrix) (key : ObjectId × Privilege) :
    (revokeSource role grantor m privilege).sources key =
      if key = (role, privilege) then (m.sources key).erase grantor else m.sources key := by
  unfold sources
  rw [← getD_withdraw]
  unfold revokeSource
  dsimp only
  split <;> rfl

@[simp] theorem optionSources_revokeSource (m : PrivilegeMatrix) (key : ObjectId × Privilege) :
    (revokeSource role grantor m privilege).optionSources key =
      if key = (role, privilege) then (m.optionSources key).erase grantor
      else m.optionSources key := by
  unfold optionSources
  rw [← getD_withdraw]
  unfold revokeSource
  dsimp only
  split <;> rfl

theorem mem_granted_revokeSource (m : PrivilegeMatrix) (role' : ObjectId) (privilege' : Privilege) :
    privilege' ∈ (revokeSource role grantor m privilege).granted role' ↔
      privilege' ∈ m.granted role' ∧ ¬((role', privilege') = (role, privilege) ∧
        (m.sources (role, privilege)).erase grantor = ∅) := by
  have hlast := isLastSource_iff grantor m.grantors (role, privilege)
  unfold revokeSource granted
  dsimp only
  by_cases hremove : isLastSource m.grantors (role, privilege) grantor = true
  · have hempty : (m.sources (role, privilege)).erase grantor = ∅ := hlast.mp hremove
    rw [if_pos hremove]
    dsimp only
    rw [getD_remove]
    by_cases hrole : role' = role
    · simp [hrole, hempty, and_comm]
    · simp [hrole]
  · have hleft : (m.sources (role, privilege)).erase grantor ≠ ∅ := fun hempty =>
      hremove (hlast.mpr hempty)
    rw [if_neg hremove]
    simp [hleft]

theorem mem_remove (sets : PrivilegeSets) (role' : ObjectId) (privilege' : Privilege) :
    privilege' ∈ ((PrivilegeSets.remove sets role privilege).lookup role').getD ∅ ↔
      privilege' ∈ (sets.lookup role').getD ∅ ∧ (role', privilege') ≠ (role, privilege) := by
  rw [getD_remove]
  by_cases hrole : role' = role
  · simp [hrole, and_comm]
  · simp [hrole]

/-- An option goes with its last source. -/
theorem mem_options_revokeSource {m : PrivilegeMatrix} (role' : ObjectId) (privilege' : Privilege)
    (hrecorded : privilege' ∈ m.options role' → (m.optionSources (role', privilege')).Nonempty) :
    privilege' ∈ (revokeSource role grantor m privilege).options role' ↔
      privilege' ∈ m.options role' ∧ ¬((role', privilege') = (role, privilege) ∧
        (m.optionSources (role, privilege)).erase grantor = ∅) := by
  have hlast := isLastSource_iff grantor m.grantOptionGrantors (role, privilege)
  have hgone : ((GrantSources.withdraw m.grantOptionGrantors (role, privilege) grantor).lookup
      (role, privilege)).isNone = true ↔ (m.optionSources (role, privilege)).erase grantor = ∅ := by
    rw [GrantSources.withdraw, lookup_editAt, if_pos rfl]
    exact isNone_bind_without _ _
  unfold revokeSource options
  dsimp only
  by_cases hempty : (m.optionSources (role, privilege)).erase grantor = ∅
  · -- no source is left: the option goes now, or there was none
    simp only [hempty, and_true]
    rw [hlast.mpr hempty, hgone.mpr hempty, Bool.and_true]
    by_cases hsome : (m.grantOptionGrantors.lookup (role, privilege)).isSome = true
    · rw [hsome]
      split <;> simp [mem_remove]
    · have habsent : (role', privilege') = (role, privilege) → privilege' ∉ m.options role' := by
        intro hkey hoption
        have hnonempty := hrecorded hoption
        rw [hkey, optionSources, Option.not_isSome_iff_eq_none.mp hsome] at hnonempty
        simp at hnonempty
      have hsame : privilege' ∈ m.options role' ↔
          privilege' ∈ m.options role' ∧ (role', privilege') ≠ (role, privilege) :=
        ⟨fun hoption => ⟨hoption, fun hkey => habsent hkey hoption⟩, And.left⟩
      rw [Bool.eq_false_iff.mpr hsome]
      split
      · simp [mem_remove]
      · simpa [options] using hsame
  · have hnotLast : isLastSource m.grantOptionGrantors (role, privilege) grantor = false :=
      Bool.eq_false_iff.mpr fun h => hempty (hlast.mp h)
    have hstays : ((GrantSources.withdraw m.grantOptionGrantors (role, privilege) grantor).lookup
        (role, privilege)).isNone = false := Bool.eq_false_iff.mpr fun h => hempty (hgone.mp h)
    rw [hnotLast, hstays, Bool.and_false]
    split <;> simp [hempty]

theorem Sourced.revokeSource (h : m.Sourced) : (revokeSource role grantor m privilege).Sourced := by
  constructor
  · intro role' privilege'
    rw [mem_options_revokeSource role grantor privilege role' privilege'
      (h.options_iff role' privilege').mp, h.options_iff, optionSources_revokeSource]
    split
    · rename_i hkey
      rw [hkey, Finset.nonempty_iff_ne_empty, Finset.nonempty_iff_ne_empty]
      simp only [true_and, and_iff_right_iff_imp]
      intro hleft hnone
      rw [hnone] at hleft
      simp at hleft
    · rename_i hkey
      simp [hkey]
  · intro role' privilege'
    rw [mem_granted_revokeSource, h.granted_iff, sources_revokeSource]
    split
    · rename_i hkey
      rw [hkey, Finset.nonempty_iff_ne_empty, Finset.nonempty_iff_ne_empty]
      simp only [true_and, and_iff_right_iff_imp]
      intro hleft hnone
      rw [hnone] at hleft
      simp at hleft
    · rename_i hkey
      simp [hkey]
  · intro key
    rw [optionSources_revokeSource, sources_revokeSource]
    split
    · exact Finset.erase_subset_erase _ (h.granting key)
    · exact h.granting key

theorem Sourced.foldl {α : Type} {f : PrivilegeMatrix → α → PrivilegeMatrix} (l : List α)
    (hf : ∀ m a, m.Sourced → (f m a).Sourced) (h : m.Sourced) : (l.foldl f m).Sourced := by
  induction l generalizing m with
  | nil => exact h
  | cons a l ih => exact ih (hf m a h)

end Steps

section Actions

variable (order : PrivilegeOrder) (role : ObjectId) {privileges : Finset Privilege}

theorem Sourced.revoke (h : m.Sourced) (hall : .all ∉ privileges) :
    (m.revoke role privileges).Sourced := by
  have hgranted (role' : ObjectId) : (m.revoke role privileges).granted role' =
      if role' = role then m.granted role' \ privileges else m.granted role' :=
    getD_withdrawAll m.grants role role' hall
  have hoptions (role' : ObjectId) : (m.revoke role privileges).options role' =
      if role' = role then m.options role' \ privileges else m.options role' :=
    getD_withdrawAll m.grantOptions role role' hall
  have hsources (key : ObjectId × Privilege) : (m.revoke role privileges).sources key =
      if key.1 = role ∧ key.2 ∈ privileges then ∅ else m.sources key := by
    unfold sources PrivilegeMatrix.revoke removeGrantProvenance
    dsimp only
    rw [lookup_edit]
    simp only [isNamed_iff hall]
    split
    · simp
    · rfl
  have hoptionSources (key : ObjectId × Privilege) :
      (m.revoke role privileges).optionSources key =
        if key.1 = role ∧ key.2 ∈ privileges then ∅ else m.optionSources key := by
    unfold optionSources PrivilegeMatrix.revoke removeGrantProvenance revokeGrantOption
    dsimp only
    rw [lookup_edit, lookup_discard]
    simp only [isNamed_iff hall]
    split
    · rfl
    · rfl
  constructor
  · intro role' privilege'
    rw [hoptions, hoptionSources]
    by_cases hrole : role' = role
    · by_cases hmem : privilege' ∈ privileges
      · simp [hrole, hmem]
      · simpa [hrole, hmem] using h.options_iff role privilege'
    · simpa [hrole] using h.options_iff role' privilege'
  · intro role' privilege'
    rw [hgranted, hsources]
    by_cases hrole : role' = role
    · by_cases hmem : privilege' ∈ privileges
      · simp [hrole, hmem]
      · simpa [hrole, hmem] using h.granted_iff role privilege'
    · simpa [hrole] using h.granted_iff role' privilege'
  · intro key
    rw [hoptionSources, hsources]
    split
    · exact Finset.Subset.refl _
    · exact h.granting key

theorem Sourced.revokeFrom (h : m.Sourced) (hall : .all ∉ privileges) (grantor : Option ObjectId) :
    (m.revokeFrom order role privileges grantor).Sourced := by
  cases grantor with
  | none => exact h.revoke role hall
  | some grantor => exact h.foldl _ fun m privilege hm => hm.revokeSource role grantor privilege

theorem Sourced.revokeFromCascade (h : m.Sourced) (hall : .all ∉ privileges)
    (grantor : Option ObjectId) (cascade : Bool) :
    (m.revokeFromCascade order role privileges grantor cascade).Sourced := by
  have hexpanded : .all ∉ m.expandPrivileges role privileges := by
    rwa [expandPrivileges, if_neg hall]
  have hrevoked := h.revokeFrom order role hexpanded grantor
  unfold PrivilegeMatrix.revokeFromCascade
  dsimp only
  split
  · refine Worklist.drain_acc (fun m lost hm => ?_) _ _ _ hrevoked
    unfold cascadeStep
    split
    · exact hm
    · refine hm.foldl _ fun m grantee hm => ?_
      -- whatever the cascade loses is revoked as granted by someone
      exact hm.foldl _ fun m privilege hm => hm.revokeSource _ _ privilege
  · exact hrevoked

theorem recordGrantors_grants (grantor : ObjectId) (withGrantOption : Bool) (l : List Privilege)
    (m : PrivilegeMatrix) :
    (l.foldl (recordGrantor role grantor withGrantOption) m).grants = m.grants ∧
      (l.foldl (recordGrantor role grantor withGrantOption) m).grantOptions = m.grantOptions := by
  induction l generalizing m with
  | nil => exact ⟨rfl, rfl⟩
  | cons privilege l ih =>
    obtain ⟨hgrants, hoptions⟩ := ih (recordGrantor role grantor withGrantOption m privilege)
    rw [List.foldl_cons, hgrants, hoptions]
    unfold recordGrantor
    dsimp only
    split <;> exact ⟨rfl, rfl⟩

theorem recordGrantors_sources (grantor : ObjectId) (withGrantOption : Bool) (l : List Privilege)
    (m : PrivilegeMatrix) (key : ObjectId × Privilege) :
    (l.foldl (recordGrantor role grantor withGrantOption) m).sources key =
      if key.1 = role ∧ key.2 ∈ l then insert grantor (m.sources key) else m.sources key := by
  induction l generalizing m with
  | nil => simp
  | cons privilege l ih =>
    have hone : (recordGrantor role grantor withGrantOption m privilege).sources key =
        if key = (role, privilege) then insert grantor (m.sources key) else m.sources key := by
      unfold sources
      rw [← getD_record]
      unfold recordGrantor
      dsimp only
      split <;> rfl
    rw [List.foldl_cons, ih, hone]
    obtain ⟨role', privilege'⟩ := key
    by_cases hrole : role' = role
    · by_cases hhead : privilege' = privilege
      · simp [hrole, hhead]
      · simp [hrole, hhead]
    · simp [hrole]

theorem recordGrantors_optionSources (grantor : ObjectId) (withGrantOption : Bool)
    (l : List Privilege) (m : PrivilegeMatrix) (key : ObjectId × Privilege) :
    (l.foldl (recordGrantor role grantor withGrantOption) m).optionSources key =
      if withGrantOption = true ∧ key.1 = role ∧ key.2 ∈ l then insert grantor (m.optionSources key)
      else m.optionSources key := by
  induction l generalizing m with
  | nil => simp
  | cons privilege l ih =>
    have hone : (recordGrantor role grantor withGrantOption m privilege).optionSources key =
        if withGrantOption = true ∧ key = (role, privilege) then insert grantor (m.optionSources key)
        else m.optionSources key := by
      unfold optionSources recordGrantor
      cases withGrantOption with
      | false => simp
      | true => simpa using getD_record m.grantOptionGrantors (role, privilege) key grantor
    rw [List.foldl_cons, ih, hone]
    obtain ⟨role', privilege'⟩ := key
    by_cases hrole : role' = role
    · by_cases hhead : privilege' = privilege
      · cases withGrantOption <;> simp [hrole, hhead]
      · simp [hrole, hhead]
    · simp [hrole]

theorem Sourced.grantFrom (h : m.Sourced) (grantor : ObjectId) (withGrantOption : Bool) :
    (m.grantFrom order role privileges (some grantor) withGrantOption).Sourced := by
  -- the privileges are written first, and recorded one by one
  obtain ⟨written, hwritten⟩ : ∃ written, written =
    if withGrantOption = true then m.grantWithOption role privileges else m.grant role privileges :=
    ⟨_, rfl⟩
  have hgrants (role' : ObjectId) : written.granted role' =
      if role' = role then m.granted role' ∪ privileges else m.granted role' := by
    rw [hwritten]
    split <;> exact getD_extend m.grants role role' privileges
  have hoptions (role' : ObjectId) : written.options role' =
      if withGrantOption = true ∧ role' = role then m.options role' ∪ privileges
      else m.options role' := by
    rw [hwritten]
    cases withGrantOption with
    | false => simp [options, PrivilegeMatrix.grant]
    | true =>
      simp only [if_true, true_and]
      exact getD_extend m.grantOptions role role' privileges
  have hsources (key : ObjectId × Privilege) : written.sources key = m.sources key := by
    rw [hwritten]
    split <;> rfl
  have hoptionSources (key : ObjectId × Privilege) :
      written.optionSources key = m.optionSources key := by
    rw [hwritten]
    split <;> rfl
  unfold PrivilegeMatrix.grantFrom
  dsimp only
  rw [← hwritten]
  obtain ⟨hkeptGrants, hkeptOptions⟩ :=
    recordGrantors_grants role grantor withGrantOption (order.list privileges) written
  constructor
  · intro role' privilege'
    rw [options, hkeptOptions, recordGrantors_optionSources, hoptionSources]
    have hnow := hoptions role'
    unfold options at hnow
    rw [hnow]
    have hbefore := h.options_iff role' privilege'
    unfold options at hbefore
    simp only [order.mem_list]
    by_cases hrole : role' = role
    · by_cases hmem : privilege' ∈ privileges
      · cases withGrantOption with
        | false => simpa [hrole, hmem] using hrole ▸ hbefore
        | true => simp [hrole, hmem]
      · cases withGrantOption with
        | false => simpa [hrole, hmem] using hrole ▸ hbefore
        | true => simpa [hrole, hmem] using hrole ▸ hbefore
    · simpa [hrole] using hbefore
  · intro role' privilege'
    rw [granted, hkeptGrants, recordGrantors_sources, hsources]
    have hnow := hgrants role'
    unfold granted at hnow
    rw [hnow]
    have hbefore := h.granted_iff role' privilege'
    unfold granted at hbefore
    simp only [order.mem_list]
    by_cases hrole : role' = role
    · by_cases hmem : privilege' ∈ privileges
      · simp [hrole, hmem]
      · simpa [hrole, hmem] using hrole ▸ hbefore
    · simpa [hrole] using hbefore
  · intro key
    rw [recordGrantors_optionSources, recordGrantors_sources, hsources, hoptionSources]
    by_cases hnamed : key.1 = role ∧ key.2 ∈ order.list privileges
    · rw [if_pos hnamed]
      by_cases hwith : withGrantOption = true
      · rw [if_pos ⟨hwith, hnamed⟩]
        exact Finset.insert_subset_insert _ (h.granting key)
      · rw [if_neg fun hboth => hwith hboth.1]
        exact (h.granting key).trans (Finset.subset_insert _ _)
    · rw [if_neg hnamed, if_neg fun hboth => hnamed hboth.2]
      exact h.granting key

theorem Sourced.revokeGrantOption (h : m.Sourced) (hall : .all ∉ privileges) :
    (m.revokeGrantOption role privileges).Sourced := by
  have hoptions (role' : ObjectId) : (m.revokeGrantOption role privileges).options role' =
      if role' = role then m.options role' \ privileges else m.options role' :=
    getD_withdrawAll m.grantOptions role role' hall
  have hoptionSources (key : ObjectId × Privilege) :
      (m.revokeGrantOption role privileges).optionSources key =
        if key.1 = role ∧ key.2 ∈ privileges then ∅ else m.optionSources key := by
    unfold optionSources PrivilegeMatrix.revokeGrantOption
    rw [lookup_discard]
    simp only [isNamed_iff hall]
    split <;> rfl
  constructor
  · intro role' privilege'
    rw [hoptions, hoptionSources]
    by_cases hrole : role' = role
    · by_cases hmem : privilege' ∈ privileges
      · simp [hrole, hmem]
      · simpa [hrole, hmem] using h.options_iff role privilege'
    · simpa [hrole] using h.options_iff role' privilege'
  · exact h.granted_iff
  · intro key
    rw [hoptionSources]
    split
    · exact Finset.empty_subset _
    · exact h.granting key

end Actions

section OptionRevokes

variable (order : PrivilegeOrder) (role grantor : ObjectId) {privileges : Finset Privilege}

theorem optionSources_revokeOptionSource (m : PrivilegeMatrix) (privilege : Privilege)
    (key : ObjectId × Privilege) :
    (revokeOptionSource role grantor m privilege).optionSources key =
      if key = (role, privilege) then (m.optionSources key).erase grantor
      else m.optionSources key := by
  unfold optionSources
  rw [← getD_withdraw]
  unfold revokeOptionSource
  dsimp only
  split <;> rfl

theorem sources_revokeOptionSource (m : PrivilegeMatrix) (privilege : Privilege) :
    (revokeOptionSource role grantor m privilege).sources = m.sources := by
  unfold revokeOptionSource sources
  dsimp only
  split <;> rfl

theorem granted_revokeOptionSource (m : PrivilegeMatrix) (privilege : Privilege) :
    (revokeOptionSource role grantor m privilege).granted = m.granted := by
  unfold revokeOptionSource granted
  dsimp only
  split <;> rfl

theorem Sourced.revokeOptionSource (h : m.Sourced) (privilege : Privilege) :
    (revokeOptionSource role grantor m privilege).Sourced := by
  have hlast := isLastSource_iff grantor m.grantOptionGrantors (role, privilege)
  constructor
  · intro role' privilege'
    rw [optionSources_revokeOptionSource]
    have hbefore := h.options_iff role' privilege'
    unfold options PrivilegeMatrix.revokeOptionSource at *
    dsimp only
    by_cases hempty : (m.optionSources (role, privilege)).erase grantor = ∅
    · rw [if_pos (hlast.mpr hempty)]
      dsimp only
      rw [mem_remove, hbefore]
      by_cases hkey : (role', privilege') = (role, privilege)
      · simp [hkey, hempty]
      · simp [hkey]
    · rw [if_neg fun hremove => hempty (hlast.mp hremove)]
      dsimp only
      rw [hbefore]
      by_cases hkey : (role', privilege') = (role, privilege)
      · have hleft := Finset.nonempty_iff_ne_empty.mpr hempty
        simp only [hkey, if_true, hleft, iff_true]
        exact hleft.mono (Finset.erase_subset _ _)
      · simp [hkey]
  · intro role' privilege'
    rw [granted_revokeOptionSource, sources_revokeOptionSource]
    exact h.granted_iff role' privilege'
  · intro key
    rw [optionSources_revokeOptionSource, sources_revokeOptionSource]
    split
    · exact (Finset.erase_subset _ _).trans (h.granting key)
    · exact h.granting key

theorem optionSources_revokeOptionSources (l : List Privilege) (m : PrivilegeMatrix)
    (key : ObjectId × Privilege) :
    (l.foldl (PrivilegeMatrix.revokeOptionSource role grantor) m).optionSources key =
      if key.1 = role ∧ key.2 ∈ l then (m.optionSources key).erase grantor
      else m.optionSources key := by
  induction l generalizing m with
  | nil => simp
  | cons privilege l ih =>
    rw [List.foldl_cons, ih, optionSources_revokeOptionSource]
    obtain ⟨role', privilege'⟩ := key
    by_cases hrole : role' = role
    · by_cases hhead : privilege' = privilege
      · simp [hrole, hhead]
      · simp [hrole, hhead]
    · simp [hrole]

theorem sources_revokeOptionSources (l : List Privilege) (m : PrivilegeMatrix)
    (key : ObjectId × Privilege) :
    (l.foldl (PrivilegeMatrix.revokeOptionSource role grantor) m).sources key = m.sources key := by
  induction l generalizing m with
  | nil => rfl
  | cons privilege l ih => rw [List.foldl_cons, ih, sources_revokeOptionSource]

theorem granted_revokeOptionSources (l : List Privilege) (m : PrivilegeMatrix) (role' : ObjectId) :
    (l.foldl (PrivilegeMatrix.revokeOptionSource role grantor) m).granted role' =
      m.granted role' := by
  induction l generalizing m with
  | nil => rfl
  | cons privilege l ih => rw [List.foldl_cons, ih, granted_revokeOptionSource]

/-- Nobody else has granted an option for the named privileges. -/
def OnlyGrantor (m : PrivilegeMatrix) (role grantor : ObjectId) (privileges : Finset Privilege) :
    Prop :=
  ∀ privilege ∈ privileges, m.optionSources (role, privilege) ⊆ {grantor}

theorem optionSources_revokeGrantOptionFrom (m : PrivilegeMatrix) (hall : .all ∉ privileges)
    (key : ObjectId × Privilege) :
    (m.revokeGrantOptionFrom order role privileges (some grantor)).optionSources key =
      if key.1 = role ∧ key.2 ∈ privileges then ∅ else m.optionSources key := by
  unfold PrivilegeMatrix.revokeGrantOptionFrom
  dsimp only
  have hkept := optionSources_revokeOptionSources role grantor
    (order.list (m.expandPrivileges role privileges)) m key
  unfold optionSources at hkept ⊢
  dsimp only
  rw [lookup_discard]
  simp only [isNamed_iff hall]
  split
  · rfl
  · rename_i hnamed
    rw [hkept]
    simp only [order.mem_list, expandPrivileges, if_neg hall, if_neg hnamed]

theorem Sourced.options_revokeGrantOptionFrom (h : m.Sourced) (hall : .all ∉ privileges)
    (role' : ObjectId) (privilege : Privilege) :
    privilege ∈ (m.revokeGrantOptionFrom order role privileges (some grantor)).options role' ↔
      (if role' = role ∧ privilege ∈ privileges then (m.optionSources (role', privilege)).erase grantor
        else m.optionSources (role', privilege)).Nonempty := by
  have hrevoked : ((order.list (m.expandPrivileges role privileges)).foldl
      (PrivilegeMatrix.revokeOptionSource role grantor) m).Sourced :=
    h.foldl _ fun m privilege hm => hm.revokeOptionSource role grantor privilege
  have hlisted := optionSources_revokeOptionSources role grantor
    (order.list (m.expandPrivileges role privileges)) m (role', privilege)
  simp only [order.mem_list, expandPrivileges, if_neg hall] at hlisted hrevoked
  rw [← hlisted, ← hrevoked.options_iff]
  unfold PrivilegeMatrix.revokeGrantOptionFrom options
  simp only [expandPrivileges, if_neg hall]

/-- The option revoked from one grantor loses the provenance of all. -/
theorem Sourced.revokeGrantOptionFrom_of_coherent (h : m.Sourced) (hall : .all ∉ privileges)
    (hcoherent : (m.revokeGrantOptionFrom order role privileges (some grantor)).Coherent) :
    m.OnlyGrantor role grantor privileges := by
  intro privilege hmem
  have hnone : privilege ∉
      (m.revokeGrantOptionFrom order role privileges (some grantor)).options role := by
    rw [hcoherent.options_iff, optionSources_revokeGrantOptionFrom order role grantor m hall,
      if_pos ⟨rfl, hmem⟩]
    exact Finset.not_nonempty_empty
  rw [h.options_revokeGrantOptionFrom order role grantor hall, if_pos ⟨rfl, hmem⟩,
    Finset.not_nonempty_iff_eq_empty] at hnone
  rw [Finset.subset_singleton_iff]
  exact (Finset.erase_eq_empty_iff _ _).mp hnone

theorem Sourced.revokeGrantOptionFrom (h : m.Sourced) (hall : .all ∉ privileges)
    (honly : m.OnlyGrantor role grantor privileges) :
    (m.revokeGrantOptionFrom order role privileges (some grantor)).Sourced := by
  have hkept := optionSources_revokeGrantOptionFrom order role grantor m hall
  have hsources (key : ObjectId × Privilege) :
      (m.revokeGrantOptionFrom order role privileges (some grantor)).sources key =
        m.sources key := sources_revokeOptionSources role grantor _ m key
  have hgranted (role' : ObjectId) :
      (m.revokeGrantOptionFrom order role privileges (some grantor)).granted role' =
        m.granted role' := granted_revokeOptionSources role grantor _ m role'
  constructor
  · intro role' privilege
    rw [h.options_revokeGrantOptionFrom order role grantor hall, hkept]
    by_cases hnamed : role' = role ∧ privilege ∈ privileges
    · have hgone : (m.optionSources (role', privilege)).erase grantor = ∅ := by
        rw [hnamed.1]
        exact (Finset.erase_eq_empty_iff _ _).mpr
          (Finset.subset_singleton_iff.mp (honly privilege hnamed.2))
      rw [if_pos hnamed, if_pos hnamed, hgone]
    · rw [if_neg hnamed, if_neg hnamed]
  · intro role' privilege
    rw [hgranted, hsources]
    exact h.granted_iff role' privilege
  · intro key
    rw [hkept, hsources]
    split
    · exact Finset.empty_subset _
    · exact h.granting key

end OptionRevokes

end PrivilegeMatrix

/-- The calls that grant and revoke. -/
inductive PrivilegeAction where
  | grantFrom (role : ObjectId) (privileges : Finset Privilege) (grantor : ObjectId)
    (withGrantOption : Bool)
  | revokeFrom (role : ObjectId) (privileges : Finset Privilege) (grantor : Option ObjectId)
  | revokeFromCascade (role : ObjectId) (privileges : Finset Privilege) (grantor : Option ObjectId)
    (cascade : Bool)
  | revokeGrantOptionFrom (role : ObjectId) (privileges : Finset Privilege)
    (grantor : Option ObjectId)
  deriving DecidableEq

namespace PrivilegeAction

def privileges : PrivilegeAction → Finset Privilege
  | grantFrom _ privileges _ _ => privileges
  | revokeFrom _ privileges _ => privileges
  | revokeFromCascade _ privileges _ _ => privileges
  | revokeGrantOptionFrom _ privileges _ => privileges

def apply (order : PrivilegeOrder) (m : PrivilegeMatrix) : PrivilegeAction → PrivilegeMatrix
  | grantFrom role privileges grantor withGrantOption =>
    m.grantFrom order role privileges (some grantor) withGrantOption
  | revokeFrom role privileges grantor => m.revokeFrom order role privileges grantor
  | revokeFromCascade role privileges grantor cascade =>
    m.revokeFromCascade order role privileges grantor cascade
  | revokeGrantOptionFrom role privileges grantor =>
    m.revokeGrantOptionFrom order role privileges grantor

/-- An option is revoked from its only grantor, or from all. -/
def Targeted (m : PrivilegeMatrix) : PrivilegeAction → Prop
  | revokeGrantOptionFrom role privileges (some grantor) => m.OnlyGrantor role grantor privileges
  | _ => True

end PrivilegeAction

/-- Calls in sequence, over hash maps that iterate in any order. -/
inductive PrivilegeRun (ok : PrivilegeMatrix → PrivilegeAction → Prop) : PrivilegeMatrix → Prop
  | start : PrivilegeRun ok {}
  | reorder {m m' : PrivilegeMatrix} : PrivilegeRun ok m → m.SameMaps m' → PrivilegeRun ok m'
  | step {m : PrivilegeMatrix} (order : PrivilegeOrder) (action : PrivilegeAction) :
    PrivilegeRun ok m → .all ∉ action.privileges → ok m action →
      PrivilegeRun ok (action.apply order m)

namespace PrivilegeMatrix

variable {m : PrivilegeMatrix}

theorem Sourced.apply (order : PrivilegeOrder) {action : PrivilegeAction} (h : m.Sourced)
    (hall : .all ∉ action.privileges) (htargeted : action.Targeted m) :
    (action.apply order m).Sourced := by
  cases action with
  | grantFrom role privileges grantor withGrantOption =>
    exact h.grantFrom order role grantor withGrantOption
  | revokeFrom role privileges grantor => exact h.revokeFrom order role hall grantor
  | revokeFromCascade role privileges grantor cascade =>
    exact h.revokeFromCascade order role hall grantor cascade
  | revokeGrantOptionFrom role privileges grantor =>
    cases grantor with
    | none => exact h.revokeGrantOption role hall
    | some grantor => exact h.revokeGrantOptionFrom order role grantor hall htargeted

theorem sourced_of_run (hrun : PrivilegeRun (fun m action => action.Targeted m) m) : m.Sourced := by
  induction hrun with
  | start => exact sourced_empty
  | reorder _ hsame ih => exact ih.sameMaps hsame
  | step order action _ hall htargeted ih => exact ih.apply order hall htargeted

/-- What the next call meets: every call keeps the provenance coherent, but the
option revoked from one grantor, which does if and only if nobody else granted
it. The other grantors keep theirs then, as well. -/
def StaysCoherent (m : PrivilegeMatrix) (order : PrivilegeOrder) (action : PrivilegeAction) : Prop :=
  (action.apply order m).Coherent ∧
    ∀ role privileges grantor,
      action = .revokeGrantOptionFrom role privileges (some grantor) →
        ∀ privilege ∈ privileges, ∀ other, other ≠ grantor →
          (other ∈ m.optionSources (role, privilege) ↔
            other ∈ (action.apply order m).optionSources (role, privilege)) ∧
          (other ∈ m.optionSources (role, privilege) →
            privilege ∈ (action.apply order m).options role)

theorem Sourced.staysCoherent_iff (order : PrivilegeOrder) {action : PrivilegeAction}
    (h : m.Sourced) (hall : .all ∉ action.privileges) :
    m.StaysCoherent order action ↔ action.Targeted m := by
  constructor
  · rintro ⟨hcoherent, -⟩
    cases action with
    | revokeGrantOptionFrom role privileges grantor =>
      cases grantor with
      | none => trivial
      | some grantor =>
        exact h.revokeGrantOptionFrom_of_coherent order role grantor hall hcoherent
    | _ => trivial
  · intro htargeted
    refine ⟨(h.apply order hall htargeted).coherent, ?_⟩
    rintro role privileges grantor rfl privilege hmem other hother
    have honly : m.OnlyGrantor role grantor privileges := htargeted
    have hnone : other ∉ m.optionSources (role, privilege) := fun hsource =>
      hother (Finset.mem_singleton.mp (honly privilege hmem hsource))
    have hafter : (PrivilegeMatrix.revokeGrantOptionFrom order m role privileges
        (some grantor)).optionSources (role, privilege) = ∅ := by
      have hnamed : .all ∉ privileges := hall
      rw [optionSources_revokeGrantOptionFrom order role grantor m hnamed, if_pos ⟨rfl, hmem⟩]
    have hgone : other ∉ ((PrivilegeAction.revokeGrantOptionFrom role privileges (some grantor)).apply
        order m).optionSources (role, privilege) := by
      show other ∉ (m.revokeGrantOptionFrom order role privileges (some grantor)).optionSources _
      rw [hafter]
      exact Finset.notMem_empty _
    exact ⟨⟨fun hsource => absurd hsource hnone, fun hsource => absurd hsource hgone⟩,
      fun hsource => absurd hsource hnone⟩

end PrivilegeMatrix

/-- In a run whose option revokes name the only grantor, each privilege and each
option has its grantors on record; the next call keeps it so, and the other
grantors' options, if and only if it names the only grantor, too. -/
theorem grantProvenance_coherent {m : PrivilegeMatrix}
    (hrun : PrivilegeRun (fun m action => action.Targeted m) m) :
    m.Coherent ∧ ∀ (order : PrivilegeOrder) (action : PrivilegeAction),
      .all ∉ action.privileges → (m.StaysCoherent order action ↔ action.Targeted m) := by
  have hsourced := PrivilegeMatrix.sourced_of_run hrun
  exact ⟨hsourced.coherent, fun order action hall => hsourced.staysCoherent_iff order hall⟩

section TwoGrantors

private def clerk : ObjectId := ⟨"", "clerk"⟩

private def manager : ObjectId := ⟨"", "manager"⟩

private def owner : ObjectId := ⟨"", "owner"⟩

private def ownerGrant : PrivilegeAction := .grantFrom clerk {.select} owner true

private def managerGrant : PrivilegeAction := .grantFrom clerk {.select} manager true

private def ownerRevoke : PrivilegeAction := .revokeGrantOptionFrom clerk {.select} (some owner)

def grantedOnce : PrivilegeMatrix := ownerGrant.apply .declared {}

def grantedTwice : PrivilegeMatrix := managerGrant.apply .declared grantedOnce

def revokedOnce : PrivilegeMatrix := ownerRevoke.apply .declared grantedTwice

theorem ownerGrant_coherent :
    grantedOnce.Coherent ∧ grantedOnce.StaysCoherent .declared ownerRevoke := by
  have hrun : PrivilegeRun (fun m action => action.Targeted m) grantedOnce :=
    .step .declared ownerGrant .start (by decide) trivial
  have htargeted : ownerRevoke.Targeted grantedOnce := by
    show grantedOnce.OnlyGrantor clerk owner {.select}
    unfold PrivilegeMatrix.OnlyGrantor
    decide +kernel
  obtain ⟨hcoherent, hnext⟩ := grantProvenance_coherent hrun
  exact ⟨hcoherent, (hnext .declared ownerRevoke (by decide)).mpr htargeted⟩

/-- Revoking what the owner granted forgets that the manager granted it, too. -/
theorem managerOption_forgotten :
    ¬∀ m, PrivilegeRun (fun _ _ => True) m → m.Coherent := by
  intro h
  have hrun : PrivilegeRun (fun _ _ => True) revokedOnce :=
    .step .declared ownerRevoke (.step .declared managerGrant
      (.step .declared ownerGrant .start (by decide) trivial) (by decide) trivial) (by decide) trivial
  have hoption := (h revokedOnce hrun).options_iff clerk .select
  revert hoption
  decide +kernel

end TwoGrantors

end SafeMigrate
