/-!
# Operations with nested scopes

An operation writes, reads, raises, and runs other operations in scopes of their own, whose
outcome it may catch. `Operation.effect` is what it should do to the state: a scope that raises
goes back to the state in which it began, and a scope that returns keeps its effects for the
operation around it.
-/

namespace LosslessHermes.Scopes

universe u v w

inductive Operation (σ : Type u) (ε : Type v) (ρ : Type w)
  | return (result : ρ)
  | raise (error : ε)
  | write (update : σ → σ) (rest : Operation σ ε ρ)
  | read (rest : σ → Operation σ ε ρ)
  /-- A nested scope, and how the operation goes on with its outcome. -/
  | scope (body : Operation σ ε ρ) (rest : Except ε ρ → Operation σ ε ρ)

variable {σ : Type u} {ε : Type v} {ρ : Type w}

/-- A scope that raises leaves the state in which it began. -/
def allOrNothing (before : σ) (after : σ × Except ε ρ) : σ × Except ε ρ :=
  match after.2 with
  | .ok _ => after
  | .error error => (before, .error error)

namespace Operation

def effect : Operation σ ε ρ → σ → σ × Except ε ρ
  | .return result, state => (state, .ok result)
  | .raise error, state => (state, .error error)
  | .write update rest, state => rest.effect (update state)
  | .read rest, state => (rest state).effect state
  | .scope body rest, state =>
      let inner := allOrNothing state (body.effect state)
      (rest inner.2).effect inner.1

end Operation

end LosslessHermes.Scopes
