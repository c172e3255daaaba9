import Switchboard.Domain.Event

/-!
# Publishers

A publisher hands each event to its handlers, one after the other in the order they were added. A
handler changes the state that it looks after and reports nothing back.
-/

namespace Switchboard

abbrev Handler (σ : Type) := DomainEvent → σ → σ

/-- The handlers of a publisher, the first added first. -/
structure Publisher (σ : Type) where
  handlers : List (Handler σ)

namespace Publisher

variable {σ : Type}

def empty : Publisher σ := ⟨[]⟩

def withHandler (p : Publisher σ) (h : Handler σ) : Publisher σ := ⟨p.handlers ++ [h]⟩

/-- Hands an event to every handler in turn. -/
def publish (p : Publisher σ) (e : DomainEvent) (state : σ) : σ :=
  p.handlers.foldl (fun state h => h e state) state

end Publisher

end Switchboard
