import Candela.Shader.Compile

/-!
# Outcomes of a walk

`Meets w p good bad` says how a walk ends that starts after `p` has been done: either it succeeds
with a result and a state of which `good` holds, or it fails with an error and a state of which
`bad` holds. There is one rule for each way to put walks together; the rule for a pass over a list
(`Meets.foldlM`) takes an invariant that speaks of the part of the list that has been passed.
-/

namespace Candela.Shader

variable {α β : Type} {p q : Progress} {bad : Error → Progress → Prop}

/-- What holds when a walk succeeds, and what holds when it fails. -/
def Meets (w : Walk α) (p : Progress) (good : α → Progress → Prop)
    (bad : Error → Progress → Prop) : Prop :=
  match w.run p with
  | .ok a q => good a q
  | .error e q => bad e q

namespace Meets

variable {w : Walk α} {good : α → Progress → Prop}

/-- A walk that meets a statement and succeeds. -/
theorem of_ok {a : α} (h : Meets w p good bad) (hrun : w.run p = .ok a q) : good a q := by
  rw [Meets, hrun] at h
  exact h

/-- A walk that meets a statement and fails. -/
theorem of_error {e : Error} (h : Meets w p good bad) (hrun : w.run p = .error e q) : bad e q := by
  rw [Meets, hrun] at h
  exact h

/-- A weaker statement is met as well. -/
theorem mono {good' : α → Progress → Prop} {bad' : Error → Progress → Prop}
    (h : Meets w p good bad) (hgood : ∀ a q, good a q → good' a q)
    (hbad : ∀ e q, bad e q → bad' e q) : Meets w p good' bad' := by
  unfold Meets at h ⊢
  split at h
  · exact hgood _ _ h
  · exact hbad _ _ h

/-- A walk that does nothing but return. -/
theorem pure {a : α} (h : good a p) : Meets (Pure.pure a) p good bad := h

/-- A walk that fails at once. -/
theorem throw {e : Error} (h : bad e p) : Meets (MonadExcept.throw e : Walk α) p good bad := h

/-- A walk that only changes the state. -/
theorem update {change : Progress → Progress} {good : PUnit → Progress → Prop}
    (h : good ⟨⟩ (change p)) : Meets (modify change : Walk PUnit) p good bad := h

/-- One walk after another. -/
theorem bind {f : α → Walk β} {mid : α → Progress → Prop} {good : β → Progress → Prop}
    (hw : Meets w p mid bad) (hf : ∀ a q, mid a q → Meets (f a) q good bad) :
    Meets (w >>= f) p good bad := by
  unfold Meets at hw
  unfold Meets
  rw [EStateM.run_bind]
  cases hrun : w.run p with
  | ok a q =>
    rw [hrun] at hw
    exact hf a q hw
  | error e q =>
    rw [hrun] at hw
    exact hw

/-- A walk that looks at the state first. -/
theorem get_bind {f : Progress → Walk β} {good : β → Progress → Prop}
    (h : Meets (f p) p good bad) : Meets (get >>= f) p good bad := h

/-- A walk that replaces the state first. -/
theorem set_bind {f : PUnit → Walk β} {good : β → Progress → Prop}
    (h : Meets (f ⟨⟩) q good bad) : Meets (set q >>= f) p good bad := h

/-- A walk that changes the state first. -/
theorem update_bind {change : Progress → Progress} {f : PUnit → Walk β}
    {good : β → Progress → Prop} (h : Meets (f ⟨⟩) (change p) good bad) :
    Meets (modify change >>= f) p good bad := h

/-- A pass over a list. -/
theorem foldlM {f : β → α → Walk β} {l : List α} {b : β} (inv : List α → β → Progress → Prop)
    (hstart : inv [] b p)
    (hstep : ∀ passed a b q, a ∈ l → inv passed b q → Meets (f b a) q (inv (passed ++ [a])) bad) :
    Meets (l.foldlM f b) p (inv l) bad := by
  -- the invariant is carried over the part that has been passed already
  suffices h : ∀ passed b p, inv passed b p →
      Meets (l.foldlM f b) p (fun b q => inv (passed ++ l) b q) bad from h [] b p hstart
  induction l with
  | nil =>
    intro passed b p hinv
    rw [List.append_nil]
    exact .pure hinv
  | cons a rest ih =>
    intro passed b p hinv
    rw [List.foldlM_cons]
    refine .bind (hstep passed a b p List.mem_cons_self hinv) fun b q hq => ?_
    rw [List.append_cons]
    exact ih (fun passed a' b q ha' => hstep passed a' b q (List.mem_cons_of_mem _ ha')) _ b q hq

end Meets

end Candela.Shader
