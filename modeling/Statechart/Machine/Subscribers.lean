/-!
# Listeners

Listeners are called in the order in which they subscribed. Each subscription
has a handle of its own, by which it can be ended; a handle is never used
again.
-/

namespace Statechart

/-- Names a subscription. -/
structure Handle where
  /-- The number of subscriptions made before. -/
  number : Nat
deriving DecidableEq, Repr, Inhabited

/-- **Listeners in the order of their subscriptions.** -/
structure Subscribers (L : Type) where
  /-- The number of subscriptions ever made. -/
  issued : Nat
  /-- The listeners that are still subscribed. -/
  listeners : List (Handle × L)

namespace Subscribers

variable {L : Type}

/-- No listeners, and none ever before. -/
def empty : Subscribers L := ⟨0, []⟩

instance : Inhabited (Subscribers L) := ⟨empty⟩

/-- One more listener, and the handle of its subscription. -/
def subscribe (subscribers : Subscribers L) (listener : L) : Handle × Subscribers L :=
  (⟨subscribers.issued⟩,
    ⟨subscribers.issued + 1, subscribers.listeners ++ [(⟨subscribers.issued⟩, listener)]⟩)

/-- Whether a subscription has not ended. -/
def contains (subscribers : Subscribers L) (handle : Handle) : Bool :=
  subscribers.listeners.any fun (other, _) => other == handle

/-- A subscription ends. Says whether it had not ended before. -/
def unsubscribe (subscribers : Subscribers L) (handle : Handle) : Bool × Subscribers L :=
  (subscribers.contains handle,
    { subscribers with
      listeners := subscribers.listeners.filter fun (other, _) => other != handle })

end Subscribers

end Statechart
