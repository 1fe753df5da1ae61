import CommitCoordinator.Metrics.Event

/-!
# Emitting metric events
-/

namespace CommitCoordinator

/-- A monad that takes note of metric events. -/
class MonadMetrics (m : Type → Type) where
  emit : MetricEvent → m Unit

instance {σ : Type} {m : Type → Type} [Monad m] [MonadMetrics m] : MonadMetrics (StateT σ m) where
  emit event := StateT.lift (MonadMetrics.emit event)

export MonadMetrics (emit)

end CommitCoordinator
