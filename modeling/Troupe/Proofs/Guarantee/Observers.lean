import Troupe.Proofs.Sessions

/-!
# Observers do not interfere

How many events the bus keeps (`Config.busCapacity`), whether instructions are published
(`Config.logOps`), who subscribes (`Subscriber`) and what becomes of that makes no difference to
what a platform does, unless application code looks there itself (`Code.Blind` says that it does
not). A session comes to the same result, leaves the same platform and has published the same, apart
from what is published for observers only (`Code.Unobserved`, by `Stage.Alike`).

That the same is done on the way, too, is seen from a log: any application can be made to keep one
of the calls of its code (`Code.logged`, `Invocation`). A log is part of the application's state,
and so it is the same whoever observes. Keeping it makes no code look at the audience
(`Code.Blind.logged`).

Headline:
* **`Code.unobserved`**: nobody interferes, whether or not a log is kept.
-/

namespace Troupe

variable {κ : App} {α β : Type}

open Troupe.Flow

/-! ## Logs -/

/-- A call of application code, one for each function of `Code` that is called for an actor. -/
inductive Invocation (κ : App)
  | build (factory : κ.Factory) (args : List Message)
  | init (actor : κ.Actor)
  | stop (actor : κ.Actor)
  | judge (trap : κ.Trap) (e : ActorError)
  | hook (actor : κ.Actor) (hook : Hook) (a : Address)
  | foreign (f : κ.Foreign) (args : List (Value κ)) (a : Address)
  | poll (task : κ.Task)

/-- An application with a log (`Invocation`). -/
abbrev App.logged (κ : App) : App :=
  { κ with World := κ.World × List (Invocation κ) }

mutual

/-- The same recipe, as the application without a log has it (`App.logged`). -/
def Template.unlogged : Template κ.logged → Template κ
  | .mk id factory args trap groups children =>
    .mk id factory args trap groups (unloggedAll children)

/-- The same recipes. -/
def Template.unloggedAll : List (Template κ.logged) → List (Template κ)
  | [] => []
  | t :: ts => t.unlogged :: unloggedAll ts

end

/-- The same value, as the application without a log has it (`App.logged`). -/
def Value.unlogged : Value κ.logged → Value κ
  | .nil => .nil
  | .int n => .int n
  | .str s => .str s
  | .message m => .message m
  | .template t => .template t.unlogged

/-- The same code, but for what it does to the log. -/
def Act.sparing : Act κ.logged α → Act κ.logged α
  | done x => done x
  | ask r next => ask r fun x => (next x).sparing
  | look next => look fun p w => (next p w).sparing
  | put w next => look fun _ v => put (w.1, v.2) next.sparing

/-- The same code, entered in the log before it begins (`Act.sparing`). -/
def Act.logging (i : Invocation κ) (act : Act κ.logged α) : Act κ.logged α :=
  look fun _ w => put (w.1, w.2 ++ [i]) act.sparing

/-- The same code, keeping a log of its calls (`Act.logging`). -/
def Code.logged (code : Code κ.logged) : Code κ.logged where
  freshId w := ((code.freshId w).1, ((code.freshId w).2.1, w.2))
  build factory args w := ((code.build factory args w).1,
    ((code.build factory args w).2.1, w.2 ++ [.build factory args]))
  init actor w := ((code.init actor w).1, ((code.init actor w).2.1, w.2 ++ [.init actor]))
  stop actor w := ((code.stop actor w).1, w.2 ++ [.stop actor])
  judge trap e w := ((code.judge trap e w).1, ((code.judge trap e w).2.1, w.2 ++ [.judge trap e]))
  hook actor hook a := (code.hook actor hook a).logging (.hook actor hook a)
  foreign f args a := (code.foreign f args a).logging (.foreign f (args.map Value.unlogged) a)
  poll task w := ((code.poll task w).1, ((code.poll task w).2.1, w.2 ++ [.poll task]))
  interrupt := code.interrupt

theorem Act.Blind.sparing {act : Act κ.logged α} (h : act.Blind) : act.sparing.Blind := by
  induction act with
  | done x => trivial
  | ask r next ih => exact fun x => ih x (h x)
  | look next ih => exact fun p w => ⟨congrArg Act.sparing (h p w).1, ih p w (h p w).2⟩
  | put w next ih => exact fun _ _ => ⟨rfl, ih h⟩

theorem Act.Blind.logging {act : Act κ.logged α} (h : act.Blind) (i : Invocation κ) :
    (act.logging i).Blind :=
  fun _ _ => ⟨rfl, h.sparing⟩

/-- Keeping a log (`Code.logged`) does not take looking at observers. -/
theorem Code.Blind.logged {code : Code κ.logged} (h : code.Blind) : code.logged.Blind :=
  ⟨fun actor hook a => (h.hook actor hook a).logging _,
    fun f args a => (h.foreign f args a).logging _⟩

/-! ## Nobody interferes -/

/-- Whatever sessions come to, they come to with other observers as well, and to nothing else: with
the same result, or broken off at the same place, on stages that only an observer can tell apart
(`Stage.Alike`). -/
def Code.Unobserved (code : Code κ) : Prop :=
  ∀ (β : Type) (session : Session code β) (depth : Nat) (config config' : Config),
    config.plain = config'.plain →
      ∀ (trap : Option κ.Trap) (subs subs' : List Subscriber) (w : κ.World) (x : _),
        session.Plays depth (.new config trap subs w) x →
          (∃ y, session.Plays depth (.new config' trap subs' w) y) ∧
            ∀ y, session.Plays depth (.new config' trap subs' w) y → SameEnd x y

/-- **Observers do not interfere** with an application whose code does not look at them
(`Code.Blind`), nor with what is logged of that code. -/
theorem Code.unobserved (κ : App) : (∀ code : Code κ, code.Blind → code.Unobserved) ∧
    ∀ code : Code κ.logged, code.Blind → code.logged.Unobserved := by
  have nobody {κ : App} {code : Code κ} (h : code.Blind) : code.Unobserved := by
    intro β session depth config config' hconfig trap subs subs' w x hx
    refine ⟨session.plays_total depth _, fun y hy => ?_⟩
    exact Session.plays_blind h hx hy (Stage.new_alike hconfig trap subs subs' w)
  exact ⟨fun code h => nobody h, fun code h => nobody h.logged⟩

/-! ## A session at work -/

/-- Its actors join no groups and do nothing on any occasion. -/
def Code.modest : Code App.sample.logged where
  freshId w := ("fresh", w)
  build _ _ w := ((), w)
  init _ w := (.direct, w)
  stop _ w := w
  judge _ _ w := (.stop, w)
  hook _ _ _ := .done (.ok ())
  foreign _ _ _ := .done (.ok .nil)
  poll _ w := (.ready (.ok none), w)

/-- An actor is spawned, and a script is run there (`Operation.eval`). -/
def Session.modest :
    Session Code.modest.logged (Except PlatformError (Option (Value App.sample.logged))) :=
  .next (.spawn (.mk (some "a") () [] none [] [])) fun _ =>
    .next (.eval .sample { code := [.pushInt 1] }) .finish

/-- Somebody hears of every instruction, on a bus that keeps one event, and panics about it. The
script has the same result, and the same calls are in the log (`Code.logged`), as if there were
nobody. -/
theorem Code.unobserved_modest : Code.modest.Blind ∧ ∃ s t,
    Session.modest.Plays 8 (.new { logOps := true, busCapacity := 1 } none
      [{ name := "s", react := fun e => if e.kind = .opExecuted then .panicked "!" else .handled }]
      ((), [])) (some (.ok (some (.int 1))), s) ∧
    Session.modest.Plays 8 (.new {} none [] ((), [])) (some (.ok (some (.int 1))), t) ∧
    s.Alike t ∧ t.world.2 = [.build () [], .init (), .hook () .run .sample] ∧
    s.platform.bus.published.size = 4 ∧ t.platform.bus.published.size = 2 := by
  have hblind : Code.modest.Blind := ⟨fun _ _ _ => trivial, fun _ _ _ => trivial⟩
  obtain ⟨s, hs, hsize⟩ : ∃ s, Session.modest.Plays 8
      (.new { logOps := true, busCapacity := 1 } none
        [{ name := "s", react := fun e => if e.kind = .opExecuted then .panicked "!" else .handled }]
        ((), [])) (some (.ok (some (.int 1))), s) ∧ s.platform.bus.published.size = 4 :=
    ⟨_, .next (Stage.watched_refl _) rfl (.next (Stage.watched_refl _) rfl
      (.finish (Stage.watched_pause _))), rfl⟩
  obtain ⟨t, ht, hlog, hsize'⟩ : ∃ t, Session.modest.Plays 8 (.new {} none [] ((), []))
      (some (.ok (some (.int 1))), t) ∧
        t.world.2 = [.build () [], .init (), .hook () .run .sample] ∧
          t.platform.bus.published.size = 2 :=
    ⟨_, .next (Stage.watched_refl _) rfl (.next (Stage.watched_refl _) rfl
      (.finish (Stage.watched_refl _))), rfl, rfl⟩
  have hsame := ((Code.unobserved App.sample).2 Code.modest hblind _ Session.modest 8
    { logOps := true, busCapacity := 1 } {} rfl none _ [] _ _ hs).2 _ ht
  exact ⟨hblind, s, t, hs, ht, hsame.stage, hlog, hsize, hsize'⟩

end Troupe
