import Rowflow.Proofs.Transform.BuiltinConduct

/-!
# The rows that transforms divert

A transform may put rows of its own into the error stream. `Transform.Offers` says that these are
admitted as long as those that it reads are. The built-in transforms divert nothing by themselves
(`Builtin.offers`): it is the runtime that diverts the row of a call that fails.
-/

namespace Rowflow

variable {σ τ α : Type}

variable {admits : Entry → Prop} {good : σ → Prop}

/-- As long as the rows that are read are admitted, the rows that are diverted are, and only good states
are saved. -/
def Plan.Offers (admits : Entry → Prop) (good : σ → Prop) : Plan σ α → Prop
  | .finish _ => True
  | .halt _ => True
  | .save state next => good state ∧ next.Offers admits good
  | .look next => ∀ view, (next view).Offers admits good
  | .read next => (next none).Offers admits good ∧
      ∀ e : Entry, admits e → (next (some e)).Offers admits good
  | .write _ next => ∀ r, (next r).Offers admits good
  | .writeTo _ _ next => ∀ r, (next r).Offers admits good
  | .divert e _ next => admits e ∧ ∀ r, (next r).Offers admits good
  | .stopAll next => next.Offers admits good
  | .report _ next => next.Offers admits good
  | .note _ next => next.Offers admits good
  | .mark next => next.Offers admits good
  | .await _ next => next.Offers admits good
  | .pause _ next => next.Offers admits good

/-- The calls of a transform in a good state offer admitted rows only. -/
structure Transform.Offers [Transform σ] (admits : Entry → Prop) (good : σ → Prop) : Prop where
  init : ∀ state, good state → (Transform.init state).Offers admits good
  process : ∀ state, good state → (Transform.process state).Offers admits good
  dispose : ∀ state, good state → (Transform.dispose state).Offers admits good

theorem Plan.offers_all (plan : Plan σ α) : plan.Offers (fun _ => True) fun _ => True := by
  induction plan
  case finish => trivial
  case halt => trivial
  case save ih => exact ⟨trivial, ih⟩
  case look ih => exact ih
  case read ih => exact ⟨ih none, fun e _ => ih (some e)⟩
  case write ih => exact ih
  case writeTo ih => exact ih
  case divert ih => exact ⟨trivial, ih⟩
  all_goals assumption

/-- Whatever transforms do, they offer some rows. -/
theorem Transform.offers_all [Transform σ] :
    Transform.Offers (σ := σ) (fun _ => True) fun _ => True :=
  ⟨fun _ _ => Plan.offers_all _, fun _ _ => Plan.offers_all _, fun _ _ => Plan.offers_all _⟩

theorem Plan.Offers.embed (wrap : σ → τ) {good : τ → Prop} {plan : Plan σ α}
    (h : plan.Offers admits fun state => good (wrap state)) : (plan.embed wrap).Offers admits good := by
  induction plan
  case finish => trivial
  case halt => trivial
  case save ih => exact ⟨h.1, ih h.2⟩
  case look ih => exact fun view => ih view (h view)
  case read ih => exact ⟨ih none h.1, fun e he => ih (some e) (h.2 e he)⟩
  case write ih => exact fun r => ih r (h r)
  case writeTo ih => exact fun r => ih r (h r)
  case divert ih => exact ⟨h.1, fun r => ih r (h.2 r)⟩
  all_goals exact ‹_ → _› h

theorem Plan.Silent.offers {plan : Plan σ α} (h : plan.Silent) : plan.Offers admits good := by
  induction h with
  | finish => trivial
  | look next _ ih => exact ih

theorem offers_rewriteField {resolver : FieldResolver} {retype : Kind → Kind}
    {keep : FieldResolver → σ} {applyAt : FieldPlace → Row → Except TransformError Entry} :
    Plan.Offers admits (fun _ => True) (rewriteField resolver retype keep applyAt) := by
  rw [rewriteField_eq]
  refine ⟨trivial, fun input _ => ?_⟩
  dsimp only
  rcases resolver.resolve retype input.layout with err | ⟨place, r⟩
  · trivial
  · refine ⟨trivial, ?_⟩
    rcases applyAt place input.row with err | out
    · trivial
    · exact fun _ => trivial

/-- **The built-in transforms** divert nothing by themselves. -/
theorem Builtin.offers (admits : Entry → Prop) : Transform.Offers admits fun _ : Builtin => True where
  init b _ := (silent_init b).offers
  dispose _ _ := trivial
  process b _ := by
    cases b
    case generateRows t =>
      refine Plan.Offers.embed Builtin.generateRows ?_
      unfold Transform.process instTransformGenerateRows
      dsimp only
      split
      · trivial
      · exact fun r => by cases r <;> trivial
    case dummy => exact ⟨trivial, fun e _ r => by cases r <;> trivial⟩
    case multiply => exact Plan.Offers.embed _ offers_rewriteField
    case parseInteger => exact Plan.Offers.embed _ offers_rewriteField
    case filterRows t =>
      refine ⟨trivial, fun e _ => ?_⟩
      dsimp only [bind, ExceptT.bind, ExceptT.mk, ExceptT.bindCont, Plan.bind, Plan.embed]
      rcases t.route e with err | _ | target | _
      · trivial
      · exact fun r => by cases r <;> trivial
      · exact fun r => by cases r <;> trivial
      · trivial
    case writeToLog =>
      exact ⟨trivial, fun e _ => ⟨trivial, fun _ r => by cases r <;> trivial⟩⟩

end Rowflow
