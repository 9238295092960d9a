import Troupe.Proofs.Flow.Blind
import Troupe.Proofs.Moments

/-!
# Sessions

Somebody outside carries out one operation of a platform after another, each chosen in view of what
the ones before it came to (`Session`). Between operations observers come and go, read the bus, and
the audience works (`Stage.Watched`). How a session goes on is not determined by that
(`Session.Plays`), but it goes on somehow (`Session.plays_total`).

All operations are blind to observers (`Flow.Blind`), and so are sessions.

Headlines:
* **`Operation.Public.blind`**: no operation makes a difference between stages that are plainly the
  same (`Stage.Alike`).
* **`Session.plays_blind`**: sessions on stages that are plainly the same come to the same.
-/

namespace Troupe

variable {κ : App} {α β : Type} {code : Code κ} {f : Flow κ α} {s t : Stage κ}

open Troupe.Flow

/-! ## Operations -/

namespace Operation

theorem thenDrain_blind (h : Blind f) : Blind (thenDrain f) :=
  .bind h fun _ => .bind (.invoke _) fun _ => .pure _

theorem spawnUnder_blind (parent : Address) (t : Template κ) :
    Blind (spawnUnder code parent t) := by
  unfold spawnUnder
  refine .bind (allocate_blind code parent t) fun x => ?_
  split
  · exact .pure _
  · refine thenDrain_blind (.bind (startTree_blind _) fun y => ?_)
    split
    · exact .pure _
    · exact .pure _

theorem exec_blind (a : Address) (script : Script κ) : Blind (exec a script) := by
  unfold exec
  refine .ask (fun _ => rfl) fun generation => ?_
  split
  · exact .pure _
  · exact thenDrain_blind (.bind (.edit fun p => p.plain_schedule a _ _) fun _ => .pure _)

theorem eval_blind (a : Address) (script : Script κ) : Blind (eval a script) := by
  unfold eval
  refine .ask (fun _ => rfl) fun blocked => .ite (.pure _) (.bind (checkOut_blind a) fun m => ?_)
  split
  · exact .pure _
  · refine thenDrain_blind (.bind (Flow.exec_blind _ script) fun x => ?_)
    exact .bind (checkIn_blind _) fun _ => .bind (.invoke _) fun _ => .pure _

theorem tellFrom_blind (target source : Address) (message : Message) :
    Blind (tellFrom (κ := κ) target source message) := by
  refine thenDrain_blind (.bind (route_blind _) fun sent => ?_)
  exact .bind (.when _ (.edit fun p => p.plain_dropMessage _)) fun _ => .pure _

/-- **Operations** (`Operation.Public`) are blind. -/
theorem Public.blind (h : Public code f) : Blind f := by
  cases h with
  | spawn t => exact spawnUnder_blind .root t
  | spawnUnder parent t => exact spawnUnder_blind parent t
  | allocate parent t => exact allocate_blind code parent t
  | runActor a => exact thenDrain_blind (.invoke _)
  | exec a script => exact exec_blind a script
  | eval a script => exact eval_blind a script
  | send target source message => exact thenDrain_blind (route_blind _)
  | tellFrom target source message => exact tellFrom_blind target source message
  | tell target message => exact tellFrom_blind target .discard message
  | broadcastFrom group source message =>
    exact thenDrain_blind (routeToMembers_blind group source message)
  | broadcast group message => exact thenDrain_blind (routeToMembers_blind group .discard message)
  | dropMessage env => exact .edit fun p => p.plain_dropMessage env
  | kill target => exact thenDrain_blind (terminate_blind code target)
  | raise a e => exact thenDrain_blind (raiseAt_blind a e)
  | putRoute target router => exact .edit fun p => p.plain_putRoute target router
  | removeRoute target => exact .edit fun p => p.plain_removeRoute target
  | putMember group a => exact putMember_blind group a
  | removeMember group a => exact .onPlatform fun p => p.removeMember_plain a group
  | trigger e => exact .publish e
  | stop => exact .edit fun p => p.plain_stop
  | run => exact .invoke _

end Operation

/-! ## One operation after another -/

/-- Whoever observes a platform from its beginning, it is plainly the same (`Stage.Alike`). -/
theorem Stage.new_alike {config config' : Config} (h : config.plain = config'.plain)
    (trap : Option κ.Trap) (subs subs' : List Subscriber) (w : κ.World) :
    (Stage.new config trap subs w).Alike (.new config' trap subs' w) := by
  obtain ⟨bus, hbus, hnew⟩ := Moment.new_platform config trap subs w
  obtain ⟨bus', hbus', hnew'⟩ := Moment.new_platform config' trap subs' w
  refine .mk ?_ ((Moment.new_world config trap subs w).trans
    (Moment.new_world config' trap subs' w).symm)
  rw [hnew, hnew']
  unfold Platform.plain Bus.plain
  rw [hbus, hbus']
  unfold Platform.new
  dsimp only
  rw [h]

/-- What somebody does with a platform: operations (`Operation.Public`), each chosen in view of what
the ones before came to, and a result in the end. -/
inductive Session (code : Code κ) (β : Type) : Type 1
  | finish (x : β)
  | next {α : Type} {f : Flow κ α} (h : Operation.Public code f) (k : α → Session code β)

namespace Session

/-- A session can come to this, begun on a stage. If an operation goes too deep it is broken off
there, and has no result. -/
inductive Plays (depth : Nat) : Session code β → Stage κ → Option β × Stage κ → Prop
  | finish {x : β} {s t : Stage κ} : s.Watched t → Plays depth (.finish x) s (some x, t)
  | broken {α : Type} {f : Flow κ α} {h : Operation.Public code f} {k : α → Session code β}
      {s t u : Stage κ} : s.Watched t → play (body code) depth f t = (none, u) →
        Plays depth (.next h k) s (none, u)
  | next {α : Type} {f : Flow κ α} {h : Operation.Public code f} {k : α → Session code β} {x : α}
      {y : Option β × Stage κ} {s t u : Stage κ} : s.Watched t →
        play (body code) depth f t = (some x, u) → Plays depth (k x) u y →
          Plays depth (.next h k) s y

variable {session : Session code β} {depth : Nat} {x y : Option β × Stage κ}

/-- Every session comes to something (`Plays`). -/
theorem plays_total (session : Session code β) (depth : Nat) (s : Stage κ) :
    ∃ x, session.Plays depth s x := by
  induction session generalizing s with
  | finish x => exact ⟨_, .finish s.watched_refl⟩
  | @next α f h k ih =>
    cases hplay : play (body code) depth f s with
    | mk x u =>
      cases x with
      | none => exact ⟨_, .broken s.watched_refl hplay⟩
      | some x =>
        obtain ⟨y, hy⟩ := ih x u
        exact ⟨y, .next s.watched_refl hplay hy⟩

/-- An operation comes to the same, whatever observers have done on the two stages before it
(`Stage.Watched`). -/
theorem play_watched {s' t' : Stage κ} (hcode : code.Blind) (hf : Operation.Public code f)
    (depth : Nat) (hs : s.Watched s') (ht : t.Watched t') (h : s.Alike t) :
    SameEnd (play (body code) depth f s') (play (body code) depth f t') :=
  play_blind hcode hf.blind depth (hs.plain.trans (h.trans ht.plain.symm))

/-- **Sessions** (`Session`) are blind: whoever observes them, they come to the same. -/
theorem plays_blind (hcode : code.Blind) (hx : session.Plays depth s x)
    (hy : session.Plays depth t y) (h : s.Alike t) : SameEnd x y := by
  induction hx generalizing t y with
  | finish hs =>
    cases hy with
    | finish ht => exact ⟨rfl, hs.plain.trans (h.trans ht.plain.symm)⟩
  | @broken _ _ hf _ _ _ _ hs hplay =>
    cases hy with
    | broken ht hplay' =>
      have hsame := play_watched hcode hf depth hs ht h
      rw [hplay, hplay'] at hsame
      exact ⟨rfl, hsame.stage⟩
    | next ht hplay' =>
      have hsame := play_watched hcode hf depth hs ht h
      rw [hplay, hplay'] at hsame
      exact nomatch hsame.result
  | @next _ _ hf _ _ _ _ _ _ hs hplay _ ih =>
    cases hy with
    | broken ht hplay' =>
      have hsame := play_watched hcode hf depth hs ht h
      rw [hplay, hplay'] at hsame
      exact nomatch hsame.result
    | next ht hplay' hrest =>
      have hsame := play_watched hcode hf depth hs ht h
      rw [hplay, hplay'] at hsame
      obtain rfl := Option.some.inj hsame.result
      exact ih hrest hsame.stage

end Session

end Troupe
