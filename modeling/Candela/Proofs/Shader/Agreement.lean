import Candela.Proofs.Shader.Walk

/-!
# A walk depends on what it reaches

`emitNode_agrees`: the walk of a node does the same in two graphs that have the same nodes under all
names that it reaches, and for any two bounds on its depth that are larger than the number of nodes
left to meet. The bound is therefore no part of what a walk does (`emitNode_eq_of_lt`): a walk
without any bound would end in the same way.

The proof goes through the two walks in step. `Agrees` is `Meets` for two walks: they do the same,
and a statement holds when they succeed.
-/

namespace Candela.Shader

open Candela.Graph (Node Input Link Kernel)

variable {α β : Type} {g g' : Graph} {p q : Progress}

/-- Two walks do the same, and a statement holds when they succeed. -/
def Agrees (w w' : Walk α) (p : Progress) (good : α → Progress → Prop) : Prop :=
  w.run p = w'.run p ∧ Meets w p good fun _ _ => True

namespace Agrees

variable {w w' : Walk α} {good : α → Progress → Prop}

/-- A walk agrees with itself. -/
theorem refl (h : Meets w p good fun _ _ => True) : Agrees w w p good := ⟨rfl, h⟩

/-- A weaker statement holds as well. -/
theorem mono {good' : α → Progress → Prop} (h : Agrees w w' p good)
    (hgood : ∀ a q, good a q → good' a q) : Agrees w w' p good' :=
  ⟨h.1, h.2.mono hgood fun _ _ h => h⟩

/-- One walk after another. -/
theorem bind {f f' : α → Walk β} {mid : α → Progress → Prop} {good : β → Progress → Prop}
    (hw : Agrees w w' p mid) (hf : ∀ a q, mid a q → Agrees (f a) (f' a) q good) :
    Agrees (w >>= f) (w' >>= f') p good := by
  refine ⟨?_, hw.2.bind fun a q hmid => (hf a q hmid).2⟩
  rw [EStateM.run_bind, EStateM.run_bind, ← hw.1]
  cases hrun : w.run p with
  | ok a q => exact (hf a q (hw.2.of_ok hrun)).1
  | error e q => rfl

/-- Walks that look at the state first. -/
theorem get_bind {f f' : Progress → Walk β} {good : β → Progress → Prop}
    (h : Agrees (f p) (f' p) p good) : Agrees (get >>= f) (get >>= f') p good := h

/-- Walks that change the state first. -/
theorem update_bind {change : Progress → Progress} {f f' : PUnit → Walk β}
    {good : β → Progress → Prop} (h : Agrees (f ⟨⟩) (f' ⟨⟩) (change p) good) :
    Agrees (modify change >>= f) (modify change >>= f') p good := h

/-- A pass over a list. -/
theorem foldlM {f f' : β → α → Walk β} {l : List α} {b : β} (inv : β → Progress → Prop)
    (hstart : inv b p)
    (hstep : ∀ a ∈ l, ∀ b q, inv b q → Agrees (f b a) (f' b a) q inv) :
    Agrees (l.foldlM f b) (l.foldlM f' b) p inv := by
  induction l generalizing b p with
  | nil => exact .refl (.pure hstart)
  | cons a rest ih =>
    rw [List.foldlM_cons, List.foldlM_cons]
    refine .bind (hstep a List.mem_cons_self b p hstart) fun b q hinv => ?_
    exact ih hinv fun a' ha' => hstep a' (List.mem_cons_of_mem _ ha')

end Agrees

/-! ## Marks -/

/-- Asking for a variable leaves the marks alone. -/
theorem identifierOf_marks (name : String) :
    Meets (identifierOf name) p (fun _ q => q.marks = p.marks) fun _ _ => True := by
  unfold identifierOf
  refine .get_bind ?_
  split
  · exact .pure rfl
  · exact .set_bind (.pure rfl)

/-- The invocation of a node is that of its type, with some slot. -/
theorem exists_invocationOf_of_invoke {k : Kernel} {r r' : Texture.Registry}
    {i : Invocation Expression} (h : invoke k r = .ok (i, r')) :
    ∃ signature slot, k.signature? = some signature ∧ i = invocationOf k signature slot := by
  unfold invoke at h
  split at h
  · cases h
  · next signature hsignature =>
    split at h
    · cases h
      exact ⟨signature, 0, hsignature, rfl⟩
    · split at h
      · cases h
      · cases h
        exact ⟨signature, _, hsignature, rfl⟩

/-- Giving a slot to a texture leaves the marks alone. -/
theorem invoked_marks (k : Kernel) :
    Meets (invoked k) p (fun i q => q.marks = p.marks ∧ ∃ signature slot,
      k.signature? = some signature ∧ i = invocationOf k signature slot) fun _ _ => True := by
  unfold invoked
  refine .get_bind ?_
  split
  · exact .throw trivial
  · next i registry hok =>
    exact .set_bind (.pure ⟨rfl, exists_invocationOf_of_invoke hok⟩)

/-! ## Two graphs -/

/-- Links to a node that two graphs share are read in the same way. -/
theorem linkExpression_agrees {link : Link} (target : FieldKind)
    (h : g.get? link.node = g'.get? link.node) :
    Agrees (linkExpression g link target) (linkExpression g' link target) p
      fun _ q => q.marks = p.marks := by
  have hsource : sourceSocket? g link = sourceSocket? g' link := by
    rw [sourceSocket?, sourceSocket?, h]
  unfold linkExpression
  rw [hsource]
  split
  · exact .refl (.pure rfl)
  · exact .refl (.bind (identifierOf_marks link.node) fun _ _ hmarks => .pure hmarks)

/-- The inputs of a node are walked in the same way when the nodes it reads from are. -/
theorem assignInput_agrees {emit emit' : String → Walk Unit} {name : String} {node : Node}
    {signature : Signature} {i : Invocation Expression} {input : String × Input}
    (hget : g.get? name = some node) (hkernel : node.kernel.signature? = some signature)
    (hinput : input ∈ node.inputs.entries) (hi : i.signature = signature)
    (hemit : ∀ source, g.Reads name source → g.get? source = g'.get? source ∧
      Agrees (emit source) (emit' source) p fun _ q => p.MarksGrow q) :
    Agrees (assignInput emit g name (contextDefaults signature.name) i input)
      (assignInput emit' g' name (contextDefaults signature.name) i input) p
      fun i q => i.signature = signature ∧ p.MarksGrow q := by
  unfold assignInput
  rw [hi]
  split
  · exact .refl (.throw trivial)
  split
  · exact .refl (.pure ⟨hi, .refl p⟩)
  · next socket link hsocket hlink =>
    obtain ⟨hsame, hagrees⟩ := hemit link.node
      ⟨node, signature, hget, hkernel, input, hinput, by simp [hsocket], link, hlink, rfl⟩
    refine .bind hagrees fun _ q hgrow => .bind (linkExpression_agrees _ hsame) fun e s hs => ?_
    refine .refl (.pure ⟨hi, fun a ha => ?_⟩)
    rw [hs]
    exact hgrow a ha
  · split
    · exact .refl (.pure ⟨hi, .refl p⟩)
    · split
      · exact .refl (.pure ⟨hi, .refl p⟩)
      · exact .refl (.pure ⟨hi, .refl p⟩)

/-- The walk of a node does the same in two graphs that have the same nodes under all names that it
reaches, whatever bounds on the depth are large enough. -/
theorem emitNode_agrees (depth depth' : Nat) (name : String) (p : Progress)
    (hsame : ∀ a, g.Reaches name a → g.get? a = g'.get? a)
    (hdepth : (unmet g p).length < depth) (hdepth' : (unmet g' p).length < depth') :
    Agrees (emitNode g depth name) (emitNode g' depth' name) p fun _ q => p.MarksGrow q := by
  induction depth generalizing depth' name p with
  | zero => cases hdepth
  | succ depth ih =>
    obtain ⟨depth', rfl⟩ := Nat.exists_eq_add_one_of_ne_zero (Nat.ne_zero_of_lt hdepth')
    unfold emitNode
    refine .get_bind ?_
    split
    · exact .refl (.pure (.refl p))
    · exact .refl (.throw trivial)
    next hnew =>
    refine .update_bind ?_
    show Agrees _ _ (p.marked name .pending) _
    rw [← hsame name .refl]
    split
    · exact .refl (.throw trivial)
    next node hget =>
    refine .bind (.refl (invoked_marks node.kernel)) fun i q hq => ?_
    obtain ⟨hmarks, signature, slot, hkernel, rfl⟩ := hq
    have hgrow : p.MarksGrow q := fun a ha => by
      rw [hmarks]
      exact p.marksGrow_marked name .pending a ha
    have hmet : q.marks.get? name ≠ none := by
      rw [hmarks, Progress.get?_marks_marked, if_pos rfl]
      exact Option.some_ne_none _
    have hless := hgrow.length_unmet_lt hget hnew hmet
    have hless' := hgrow.length_unmet_lt ((hsame name .refl).symm.trans hget) hnew hmet
    simp only [Invocation.signature_comment, signature_invocationOf]
    refine .bind (.foldlM (fun i s => i.signature = signature ∧ q.MarksGrow s) ⟨by simp, .refl q⟩
      fun input hinput i s hs => ?_) fun i s hs => ?_
    · refine .mono (assignInput_agrees hget hkernel hinput hs.1 fun source hreads => ⟨?_, ?_⟩)
        fun i t ht => ⟨ht.1, hs.2.trans ht.2⟩
      · exact hsame source (.single hreads)
      · have hgrow' := hgrow.trans hs.2
        refine ih depth' source s (fun a ha => hsame a (.head hreads ha)) ?_ ?_
        · have := hs.2.length_unmet_le (g := g)
          omega
        · have := hs.2.length_unmet_le (g := g')
          omega
    · refine .bind (.refl (identifierOf_marks name)) fun identifier t ht => ?_
      refine .refl (.update_bind (.update ?_))
      refine (hgrow.trans hs.2).trans fun a ha => ?_
      rw [← ht] at ha
      exact (t.grows_finished ⟨name, identifier, _⟩).marks a ha

/-! ## The bound on the depth -/

/-- Before a walk no more nodes are left to meet than the graph has. -/
theorem length_unmet_start_le (g : Graph) (registry : Texture.Registry) :
    (unmet g (.start registry)).length ≤ g.size := by
  refine Nat.le_trans (List.length_filter_le _ _) (Nat.le_of_eq ?_)
  rw [Keyed.keys, List.length_map]
  rfl

/-- Every bound that is larger than the number of nodes gives the same walk. -/
theorem emitNode_eq_of_lt {depth : Nat} (registry : Texture.Registry) (name : String)
    (hdepth : g.size < depth) :
    (emitNode g depth name).run (.start registry) =
      (emitNode g (g.size + 1) name).run (.start registry) := by
  have hstart := length_unmet_start_le g registry
  exact (emitNode_agrees depth (g.size + 1) name (.start registry) (fun _ _ => rfl)
    (Nat.lt_of_le_of_lt hstart hdepth) (Nat.lt_succ_of_le hstart)).1

end Candela.Shader
