import SafeMigrate.Writes

/-! What a statement leaves alone while it records evidence, undo entries and
generations: the contents of the catalog. -/

namespace SafeMigrate

open AnalysisState

/-- The state without the records kept beside the catalog. -/
def AnalysisState.contents (s : AnalysisState) : AnalysisState :=
  { s with evidence := {}, confidence := .exact, transactions := [], generationCounter := 0 }

def SameContents (s t : AnalysisState) : Prop := t.contents = s.contents

namespace AnalysisState

variable (s : AnalysisState)

@[simp] theorem contents_pushUndo (change : StateChange) : (s.pushUndo change).contents = s.contents := by
  unfold pushUndo
  split <;> rfl

@[simp] theorem contents_bumpGeneration : s.bumpGeneration.contents = s.contents :=
  s.contents_pushUndo (.generationCounterSnapshot s.generationCounter)

theorem contents_taint (code : EvidenceCode) (scope : EvidenceScope) :
    (s.taint code scope).contents = s.contents := by
  unfold taint recordEvidence
  dsimp only
  split
  · rfl
  · show (s.snapshotEvidence.markTainted).contents = s.contents
    unfold markTainted
    split
    · exact s.contents_pushUndo _
    · show (s.snapshotEvidence.snapshotConfidence).contents = s.contents
      rw [snapshotConfidence, contents_pushUndo, snapshotEvidence, contents_pushUndo]

end AnalysisState

instance : KeepsEvidence SameContents where
  refl _ := rfl
  trans _ _ _ h h' := Eq.trans h' h
  taint s code scope := s.contents_taint code scope

namespace SameContents

variable {s t u : AnalysisState}

theorem refl (s : AnalysisState) : SameContents s s := rfl

theorem trans (h : SameContents s t) (h' : SameContents t u) : SameContents s u := Eq.trans h' h

theorem pushUndo (s : AnalysisState) (change : StateChange) : SameContents s (s.pushUndo change) :=
  s.contents_pushUndo change

theorem bumpGeneration (s : AnalysisState) : SameContents s s.bumpGeneration :=
  s.contents_bumpGeneration

theorem taint (s : AnalysisState) (code : EvidenceCode) (scope : EvidenceScope) :
    SameContents s (s.taint code scope) := s.contents_taint code scope

/-- What reads the contents only reads the same before and after. -/
theorem reads {α : Type} (h : SameContents s t) (f : AnalysisState → α)
    (hf : ∀ s, f s.contents = f s) : f t = f s := by
  rw [← hf t, h, hf s]

theorem relations (h : SameContents s t) : t.relations = s.relations :=
  h.reads (·.relations) fun _ => rfl

theorem types (h : SameContents s t) : t.types = s.types :=
  h.reads (·.types) fun _ => rfl

theorem functions (h : SameContents s t) : t.functions = s.functions :=
  h.reads (·.functions) fun _ => rfl

theorem sequences (h : SameContents s t) : t.sequences = s.sequences :=
  h.reads (·.sequences) fun _ => rfl

theorem constraints (h : SameContents s t) : t.constraints = s.constraints :=
  h.reads (·.constraints) fun _ => rfl

theorem publications (h : SameContents s t) : t.publications = s.publications :=
  h.reads (·.publications) fun _ => rfl

theorem triggers (h : SameContents s t) : t.triggers = s.triggers :=
  h.reads (·.triggers) fun _ => rfl

theorem pendingValidation (h : SameContents s t) : t.pendingValidation = s.pendingValidation :=
  h.reads (·.pendingValidation) fun _ => rfl

theorem searchPath (h : SameContents s t) : t.searchPath = s.searchPath :=
  h.reads (·.searchPath) fun _ => rfl

theorem graph (h : SameContents s t) : t.graph = s.graph :=
  h.reads (·.graph) fun _ => rfl

theorem baselineForeignKeys (h : SameContents s t) :
    t.baselineForeignKeys = s.baselineForeignKeys :=
  h.reads (·.baselineForeignKeys) fun _ => rfl

theorem pgVersion (h : SameContents s t) : t.pgVersion = s.pgVersion :=
  h.reads (·.pgVersion) fun _ => rfl

theorem currentRole (h : SameContents s t) : t.currentRole = s.currentRole :=
  h.reads (·.currentRole) fun _ => rfl

theorem currentRoleKnown (h : SameContents s t) : t.currentRoleKnown = s.currentRoleKnown :=
  h.reads (·.currentRoleKnown) fun _ => rfl

theorem bootstrapSuperuser (h : SameContents s t) : t.bootstrapSuperuser = s.bootstrapSuperuser :=
  h.reads (·.bootstrapSuperuser) fun _ => rfl

theorem rolesKnown (h : SameContents s t) : t.rolesKnown = s.rolesKnown :=
  h.reads (·.rolesKnown) fun _ => rfl

theorem roleMembershipGrantors (h : SameContents s t) :
    t.roleMembershipGrantors = s.roleMembershipGrantors :=
  h.reads (·.roleMembershipGrantors) fun _ => rfl

theorem roleMembershipGrantorsComplete (h : SameContents s t) :
    t.roleMembershipGrantorsComplete = s.roleMembershipGrantorsComplete :=
  h.reads (·.roleMembershipGrantorsComplete) fun _ => rfl

theorem typeIsPresent (h : SameContents s t) (id : ObjectId) :
    t.typeIsPresent id = s.typeIsPresent id :=
  h.reads (·.typeIsPresent id) fun _ => rfl

theorem of_check {α : Type} {c : Statement α} (hc : Command.Keeps SameContents c) {a : α}
    (h : c.run.run s = (.ok a, t)) : SameContents s t := by
  have hkeeps := hc s
  rwa [Command.after, h] at hkeeps

end SameContents

end SafeMigrate
