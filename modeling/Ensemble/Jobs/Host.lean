import Ensemble.Part
import Ensemble.Jobs.Workshop

/-!
# Hosts

A host runs commands for tools. It lives in the world that the tools change.
-/

namespace Ensemble.Jobs

structure Host (σ : Type) where
  /-- The command, whether cancellation was requested already, and the world. -/
  run : Command → Bool → σ → Except String RunOutcome × σ
  logs : Nat → σ → LogsOutcome × σ
  shutdown : σ → σ

def Workshop.host {σ : Type} (part : Part σ Workshop) (interruption : Interruption := .never) : Host σ where
  run command cancelled world :=
    let (outcome, w) := (part.get world).run command (if cancelled then .already else interruption)
    (outcome, part.set w world)
  logs pid world :=
    let (outcome, w) := (part.get world).logs pid
    (outcome, part.set w world)
  shutdown world := part.set (part.get world).shutdown.2 world

end Ensemble.Jobs
