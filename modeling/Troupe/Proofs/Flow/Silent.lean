import Troupe.Flow.Requests
import Troupe.Proofs.Flow.Stepwise
import Troupe.Proofs.Platform.Step

/-!
# Code that asks for nothing

Code of the application may leave the platform alone: it looks at things, changes the application's
own state and ends. `Act.Silent` says so of an `Act`, with what it ends in, and `Act.after` what it
makes of that state, without carrying anything out.

This is how the hooks of concrete applications are followed, which note what they were given and
answer: no call is made on their behalf, so they are carried out at any depth (`perform_serve`).

Headline:
* **`Flow.perform_act`**: an actor that acts so changes the application's state and nothing else.
  Its code does not find the actor at hand meanwhile, as the source takes it out of its context
  (`checkout_instance`), and afterwards it is at hand again.
-/

namespace Troupe

variable {κ : App} {α : Type}

namespace Act

/-- The code ends in `x`, whatever it finds, and asks for nothing. -/
def Silent (x : α) : Act κ α → Prop
  | done y => y = x
  | ask _ _ => False
  | look next => ∀ p w, (next p w).Silent x
  | put _ next => next.Silent x

/-- The application's state after code that asks for nothing (`Act.Silent`). -/
def after : Act κ α → Platform κ → κ.World → κ.World
  | done _, _, w => w
  | ask _ _, _, w => w
  | look next, p, w => (next p w).after p w
  | put w next, p, _ => next.after p w

end Act

namespace Flow

open Platform

variable {body : (c : Call κ) → Flow κ c.Answer} {code : Code κ} {m : Machine κ} {n : Nat}
  {s : Stage κ} {x : α}

theorem perform_serve {f : Act κ α} (h : f.Silent x) :
    perform body n (serve code f m) s =
      some ((x, m), { s with world := f.after s.platform s.world }) := by
  induction f generalizing s with
  | done y =>
    obtain rfl : y = x := h
    rfl
  | ask r next ih => exact h.elim
  | look next ih => exact ih s.platform s.world (h s.platform s.world)
  | put w next ih => exact ih (s := { s with world := w }) h

/-- **An actor that asks for nothing** (`Act.Silent`) changes the application's state only. Its code
does not find the actor at hand. -/
theorem perform_act {c : Context κ} {actor : κ.Actor} {hook : Hook} {x : Except ActorError Unit}
    (hc : s.platform.context? m.address = some c) (hgeneration : c.generation = m.generation)
    (hactor : c.actor = some actor) (h : (code.hook actor hook m.address).Silent x) :
    let lent := s.platform.modifyContext m.address fun c => { c with actor := none }
    let world := (code.hook actor hook m.address).after lent s.world
    perform body n (act code m hook) s = some ((some x, m), { s with world }) := by
  intro lent world
  obtain ⟨address, generation, _, machine, flags, mailbox, receivers, backlog, template⟩ := c
  obtain rfl : _ = some actor := hactor
  obtain rfl : generation = m.generation := hgeneration
  have hcurrent : lent.isCurrent m.address m.generation = true := by
    unfold isCurrent generation?
    rw [context?_modifyContext, if_pos rfl, hc]
    exact beq_self_eq_true _
  have hback : lent.modifyContext m.address (fun c => { c with actor := some actor }) =
      s.platform := modifyContext_back hc rfl
  have hserve : perform body n (serve code (code.hook actor hook m.address) m)
      (s.edit fun _ => lent) = some ((x, m), { s.edit fun _ => lent with world }) :=
    perform_serve h
  unfold act
  rw [perform_see, hc]
  dsimp only
  rw [if_neg (by simp), perform_edit, perform_bind]
  refine (congrArg (Option.bind · _) hserve).trans ?_
  rw [Option.bind_some, perform_modify]
  refine (congrArg (perform body n (pure (some x, m))) ((if_pos hcurrent).trans ?_)).trans rfl
  exact congrArg (fun platform => ({ s with platform, world } : Stage κ)) hback

end Flow

end Troupe
