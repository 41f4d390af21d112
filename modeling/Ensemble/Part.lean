/-!
# Parts of a world
-/

namespace Ensemble

/-- A part of the world that can be looked at and replaced. -/
structure Part (σ α : Type) where
  get : σ → α
  set : α → σ → σ

end Ensemble
