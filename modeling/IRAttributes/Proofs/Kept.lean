import IRAttributes.Proofs.RelatedRequests

/-!
What computations keep. A computation that is related to itself, on states that
are the same on both sides and of which something holds, keeps what holds. So
all that is known about related computations is known about what they keep as
well. A component carries what holds of its part over to the whole, and with it
everything that operations on the part keep.
-/
namespace IRAttributes

variable {σ τ α β H : Type}

/-- The same state on both sides, and something holds of it. -/
def Diagonal (I : σ → Prop) (s t : σ) : Prop := s = t ∧ I s

/-- A part of which `J` holds, found in a whole of which `I` holds and put back there. -/
structure Component.Carries (component : Component τ σ) (J : σ → Prop) (I : τ → Prop) :
    Prop where
  get : ∀ t, I t → J (component.get t)
  put : ∀ t s, I t → J s → I (component.put s t)

section

variable {I : τ → Prop} {J : σ → Prop} {P : Attribute → Prop} {component : Component τ σ}

namespace Step

theorem Related.diagonal {Q : α → α → Prop} {x : Step σ α}
    (h : ∀ s, J s → Q (x.run s).answer (x.run s).answer ∧ J (x.run s).state) :
    Related (Diagonal J) Q x x := by
  rintro s _ ⟨rfl, hs⟩
  obtain ⟨hanswer, hstate⟩ := h s hs
  exact ⟨hanswer, rfl, hstate⟩

/-- What only looks at a state keeps everything. -/
theorem Related.look {Q : α → α → Prop} {x : Step σ α} (hstate : ∀ s, (x.run s).state = s)
    (hanswer : ∀ s, J s → Q (x.run s).answer (x.run s).answer) :
    Related (Diagonal J) Q x x := by
  refine Related.diagonal ?_
  intro s hs
  rw [hstate s]
  exact ⟨hanswer s hs, hs⟩

theorem Related.kept {Q : α → α → Prop} {x : Step σ α} (h : Related (Diagonal J) Q x x) {s : σ}
    (hs : J s) : J (x.run s).state := by
  obtain ⟨-, -, hkept⟩ := h s s ⟨rfl, hs⟩
  exact hkept

theorem Related.within {Q : α → α → Prop} {x : Step σ α} (hc : component.Carries J I)
    (h : Related (Diagonal J) Q x x) :
    Related (Diagonal I) Q (x.within component) (x.within component) := by
  rintro t _ ⟨rfl, ht⟩
  obtain ⟨hanswer, -, hstate⟩ := h _ _ ⟨rfl, hc.get t ht⟩
  exact ⟨hanswer, rfl, hc.put t _ ht hstate⟩

end Step

namespace Action

theorem Related.within {Q : α → α → Prop} {x : Action σ α} (hc : component.Carries J I)
    (h : Related (Diagonal J) Q x x) :
    Related (Diagonal I) Q (Action.within component x) (Action.within component x) :=
  Step.Related.within hc h

end Action

namespace Collection

variable {c : Collection σ}

theorem Reads.within (hc : component.Carries J I) (h : c.Reads (Diagonal J) P c) :
    (c.within component).Reads (Diagonal I) P (c.within component) where
  index := by
    rintro t _ ⟨rfl, -⟩
    rfl
  find? key := (h.find? key).within hc
  attributes := h.attributes.within hc
  size := h.size.within hc

theorem Writes.within (hc : component.Carries J I) (h : c.Writes (Diagonal J) P c) :
    (c.within component).Writes (Diagonal I) P (c.within component) where
  index := by
    rintro t _ ⟨rfl, -⟩
    rfl
  add v hv := (h.add v hv).within hc
  remove key := (h.remove key).within hc

end Collection

namespace Store

variable {S : Store σ H} {entity : H} {index : Index}

theorem Reads.within (hc : component.Carries J I) (h : S.Reads (Diagonal J) P S entity index) :
    (S.within component).Reads (Diagonal I) P (S.within component) entity index where
  parameterCount := h.parameterCount.within hc
  count := h.count.within hc
  attributes := h.attributes.within hc
  find? key := (h.find? key).within hc

theorem Writes.within (hc : component.Carries J I) (h : S.Writes (Diagonal J) P S entity index) :
    (S.within component).Writes (Diagonal I) P (S.within component) entity index where
  parameterCount := h.parameterCount.within hc
  add v hv := (h.add v hv).within hc
  remove key := (h.remove key).within hc

end Store

end

namespace Recorded

variable {J : σ → Prop} {P : Attribute → Prop}

theorem carries (J : σ → Prop) :
    (component : Component (Recorded σ H) σ).Carries J fun r => J r.store where
  get _ h := h
  put _ _ _ h := h

/-- Noting a request keeps what holds of the store. -/
private theorem related_note (m : Message H) :
    Step.Related (Diagonal fun r : Recorded σ H => J r.store) Eq (note m) (note m) := by
  refine Step.Related.diagonal ?_
  intro r hr
  exact ⟨rfl, hr⟩

private theorem related_noting {Q : α → α → Prop} (m : Message H) {x : Step σ α}
    (h : Step.Related (Diagonal J) Q x x) :
    Step.Related (Diagonal fun r : Recorded σ H => J r.store) Q (noting m x) (noting m x) := by
  refine Step.Related.bind (related_note m) ?_
  intro _ _ _
  exact h.within (carries J)

private theorem related_parameterCount {S : Store σ H} {entity : H}
    (h : Action.Related (Diagonal J) Eq (S.parameterCount entity) (S.parameterCount entity)) :
    Action.Related (Diagonal fun r : Recorded σ H => J r.store) Eq
      (S.recorded.parameterCount entity) (S.recorded.parameterCount entity) := by
  refine Step.Related.bind (Step.Related.within (carries J) h) ?_
  intro answer answer' hagree
  obtain rfl : answer = answer' := Action.agree_eq_iff.mp hagree
  refine Step.Related.bind (related_note _) ?_
  intro _ _ _
  exact Step.Related.pure hagree

end Recorded

namespace Store

variable {J : σ → Prop} {P : Attribute → Prop} {S : Store σ H} {entity : H} {index : Index}

theorem Reads.recorded (h : S.Reads (Diagonal J) P S entity index) :
    S.recorded.Reads (Diagonal fun r => J r.store) P S.recorded entity index where
  parameterCount := Recorded.related_parameterCount h.parameterCount
  count := Recorded.related_noting _ h.count
  attributes := Recorded.related_noting _ h.attributes
  find? key := Recorded.related_noting _ (h.find? key)

theorem Writes.recorded (h : S.Writes (Diagonal J) P S entity index) :
    S.recorded.Writes (Diagonal fun r => J r.store) P S.recorded entity index where
  parameterCount := Recorded.related_parameterCount h.parameterCount
  add v hv := Recorded.related_noting _ (h.add v hv)
  remove key := Recorded.related_noting _ (h.remove key)

end Store

end IRAttributes
