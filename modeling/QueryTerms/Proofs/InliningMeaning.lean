import QueryTerms.Proofs.TokenModel

/-! Inlining keeps the meaning of a call, whatever the operators mean. -/

universe u

namespace QueryTerms.Proofs.InliningMeaning
open Term

/-- A call and what is made of it mean the same in every environment. -/
theorem makeCall_meaning {D : Type u} {meaning : Term → Env D → D} (compositional : Compositional meaning)
    (op : Operator) (args : List Term) (named : List (String × Term)) (e : Env D) :
    meaning (makeCall op args named) e = meaning (.call op args named) e := by
  unfold makeCall
  split
  next params body' found =>
    obtain ⟨rfl, rfl, function, actuals, body, targets, rfl, parts, distinct, full, refers, renamed⟩ :=
      inlined?_eq_some_iff.mp found
    have values : actuals.map (meaning · e) = targets.map e := by
      rw [← List.forall₂_eq_eq_eq, List.forall₂_map_left_iff, List.forall₂_map_right_iff]
      exact refers.imp fun t w same => compositional.reference t w e (asVar?_eq_some_iff.mpr same)
    rw [compositional.funcall function params body actuals e (funcParts?_eq_some_iff.mpr parts) distinct full.symm,
      values]
    apply compositional.meaning_rename renamed
    intro v _
    rw [Env.assign_targets e e distinct, Option.getD_map]
  next => rfl

theorem makeCall_meaning_tokens :
    Compositional TokenModel.tokens ∧
    (∀ e, TokenModel.tokens (.literal .null) e ≠ TokenModel.tokens (.literal (.bool true)) e) ∧
    let args := [func [1] (.call .sub [var 1, func [2] (var 1)] []), .annotated "x" (var 5)]
    makeCall .funcall args [] = .call .sub [var 5, func [2] (var 5)] [] ∧
      ∀ e, TokenModel.tokens (makeCall .funcall args []) e = TokenModel.tokens (.call .funcall args []) e := by
  refine ⟨TokenModel.compositional, ?_, rfl, makeCall_meaning TokenModel.compositional _ _ _⟩
  intro e same
  simp [TokenModel.tokens_literal] at same

end QueryTerms.Proofs.InliningMeaning
