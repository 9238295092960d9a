import Troupe.Proofs.Flow.Lines
import Troupe.Proofs.Machine.Forward
import Troupe.Proofs.Moments

/-!
# Scripts that come to an end

The loop that runs a script (`Flow.runMachine`, the source's `exec` loop) has no bound of its own,
and functions may call one another and themselves. But if the code of a script only goes forward,
and lets no other code run (`Script.Forward`), every line takes from what is left to do
(`Machine.toil`), so the script ends, whatever the limit of frames is, and whatever the machine and
the stage are when it begins.

That a machine will have ended after so many lines is `Machine.Ending`. It is carried from line to
line by the number that is left (`Machine.Forth.ends`), and a line that makes a demand on the
platform does so alone (`Flow.Solo`): it calls no other activity.

Headline:
* **`Flow.exec_ends`**: such a script ends, within a number of lines that is known beforehand.
-/

namespace Troupe

variable {κ : App} {α β : Type}

namespace Flow

/-! ## Work that calls nothing -/

/-- The flow makes no calls (`Flow.call`). -/
def Solo : Flow κ α → Prop
  | done _ => True
  | get next => ∀ s, (next s).Solo
  | set _ next => next.Solo
  | call _ _ => False

variable {code : Code κ} {f : Flow κ α} {g : α → Flow κ β} {s : Stage κ} {m m' n : Machine κ}
  {base : Nat}

theorem Solo.bind (hf : f.Solo) (hg : ∀ x, (g x).Solo) : (f.bind g).Solo := by
  induction f with
  | done x => exact hg x
  | get next ih => exact fun s => ih s (hf s)
  | set t next ih => exact ih hf
  | call c next => exact hf.elim

/-- **A flow without calls** is carried out, however deep calls may nest (`performWith`). -/
theorem Solo.ends (hf : f.Solo) (s : Stage κ) :
    ∃ x t, ∀ answer, performWith answer f s = some (x, t) := by
  induction f generalizing s with
  | done x => exact ⟨x, s, fun _ => rfl⟩
  | get next ih => exact ih s (hf s) s
  | set t next ih => exact ih hf t
  | call c next => exact hf.elim

/-- A demand that lets no other code run (`Demand.rouses`) is met without a call, and the machine
stays as it is. -/
theorem meet_solo (code : Code κ) (m : Machine κ) {d : Demand κ} (hd : d.rouses = false) :
    ∃ f : Flow κ (Met κ), meet code m d = onBehalf m f ∧ f.Solo := by
  cases d with
  | start | send | read | foreign => exact absurd hd (by simp [Demand.rouses])
  | allocate t =>
    refine ⟨_, rfl, Solo.bind (fun _ => trivial) fun x => ?_⟩
    cases x <;> trivial
  | takeMail =>
    refine ⟨_, rfl, Solo.bind (fun _ => trivial) fun x => ?_⟩
    cases x <;> trivial
  | kill target =>
    refine ⟨_, rfl, Solo.bind ?_ fun _ => trivial⟩
    unfold killFor
    split
    · exact fun _ => trivial
    · trivial
  | drop | arm | countReceivers | countMail | discardMail | route | unroute =>
    exact ⟨_, rfl, fun _ => trivial⟩

end Flow

open Troupe.Flow

/-! ## Line by line -/

namespace Machine

variable {code : Code κ} {script : Script κ} {s : Stage κ} {m n : Machine κ} {base k toil : Nat}
  {i : Instr} {top : Frame κ} {own : List (Frame κ)}

/-- Whatever machine runs the script, and whatever the stage is, the script ends if no more than
this is left to do (`Machine.Forth`). -/
def Ending (code : Code κ) (script : Script κ) (base k toil : Nat) : Prop :=
  ∀ (n : Machine κ) (top : Frame κ) (own : List (Frame κ)) (s : Stage κ),
    n.Forth script base (top :: own) → n.toil script base (top :: own) ≤ toil →
      (performCall (body code) k (.resume n base) s).isSome

theorem Ending.resume (hends : Ending code script base k toil)
    (h : m.Forth script base (top :: own)) (hle : m.toil script base (top :: own) ≤ toil) :
    (perform (body code) k (invoke (.resume m base)) s).isSome := by
  unfold perform
  rw [performWith_invoke]
  exact hends m top own s h hle

/-- A frame returns (`Flow.leaveFrame`). -/
theorem Ending.leaveFrame (hends : Ending code script base k toil)
    (h : m.Forth script base (top :: own)) (hle : m.toil script base (top :: own) ≤ toil + 1) :
    (perform (body code) k (leaveFrame m base) s).isSome := by
  have hdepth : m.depth = own.length + 1 + base := h.depth
  cases own with
  | nil =>
    rw [leaveFrame_last (hdepth.trans (by simp [Nat.add_comm]))]
    rfl
  | cons caller own =>
    obtain ⟨caller', hforth, hlt⟩ := h.leave
    rw [leaveFrame_caller (by rw [hdepth, List.length_cons]; omega)]
    exact hends.resume hforth (Nat.le_of_lt_succ (Nat.lt_of_lt_of_le hlt hle))

/-- A demand has been met (`Flow.goOn`). -/
theorem Ending.goOn (hends : Ending code script base k toil)
    (h : m.Forth script base (top :: own)) (hle : m.toil script base (top :: own) ≤ toil)
    (met : Met κ) : (perform (body code) k (goOn m base met) s).isSome := by
  cases met with
  | nothing => exact hends.resume h hle
  | halt | failed => rfl
  | push v =>
    cases hpush : m.pushValue v with
    | error e =>
      have hfailed : Flow.goOn m base (.push v) = failScript m base e := by
        unfold Flow.goOn
        simp only [hpush]
      rw [hfailed]
      rfl
    | ok n =>
      obtain ⟨top', hn, hle'⟩ := h.pushValue hpush
      have hpushed : Flow.goOn m base (.push v) = invoke (.resume n base) := by
        unfold Flow.goOn
        simp only [hpush]
        rfl
      rw [hpushed]
      exact hends.resume hn (Nat.le_trans hle' hle)

/-- A line is carried out that is no return (`Flow.carryOut`). -/
theorem Ending.carryOut (hends : Ending code script base k toil) (hscript : script.Forward)
    (h : m.Forth script base (top :: own)) (hf : m.fetch = some (i, n))
    (hle : m.toil script base (top :: own) ≤ toil + 1) :
    (perform (body code) k (carryOut code n base i) s).isSome := by
  cases hstep : n.step i with
  | error e =>
    unfold Flow.carryOut
    rw [hstep]
    rfl
  | ok r =>
    obtain ⟨hquiet, top', own', hforth, hlt⟩ := h.step hscript hf hstep
    have hle' := Nat.le_of_lt_succ (Nat.lt_of_lt_of_le hlt hle)
    cases r with
    | next n' =>
      rw [carryOut_next hstep]
      exact hends.resume hforth hle'
    | demand d n' =>
      obtain ⟨f, hf, hsolo⟩ := meet_solo code n' (hquiet d n' rfl)
      obtain ⟨met, t, hmet⟩ := hsolo.ends s
      have hbehalf : perform (body code) k (meet code n' d) s = some ((met, n'), t) := by
        rw [hf]
        refine (performWith_bind _ _ _).trans ?_
        rw [hmet]
        rfl
      rw [carryOut_demand hstep]
      refine (congrArg Option.isSome (performWith_bind _ _ _)).trans ?_
      show ((perform (body code) k (meet code n' d) s).bind _).isSome = true
      rw [hbehalf]
      exact hends.goOn hforth hle' met

/-- **A script that goes forward ends** (`Machine.Ending`): it is carried out if calls may nest
deeper than there is left to do. -/
theorem Forth.ends (code : Code κ) (hscript : script.Forward) (base k : Nat) :
    Ending code script base (k + 1) k := by
  -- by induction on what is left to do
  induction k with
  | zero =>
    exact fun n top own s _ hk => absurd (Frame.toil_pos (Nat.succ_pos _)) (Nat.not_lt.mpr hk)
  | succ k ih =>
    intro m top own s h hk
    have hdepth : m.depth = own.length + 1 + base := h.depth
    have hb : base < m.depth := by omega
    cases hcur : s.platform.isCurrent m.address m.generation with
    | false =>
      rw [performCall_gone hb hcur]
      rfl
    | true =>
      cases hf : m.fetch with
      | none =>
        rw [performCall_past hb hcur hf]
        exact ih.leaveFrame h hk
      | some fetched =>
        obtain ⟨i, n⟩ := fetched
        rw [performCall_line hb hcur hf]
        split
        · -- what returns is the frame that has gone to its next line
          obtain ⟨top', hn, hlt⟩ := h.line hf (.refl script (fetch_atop hf).ne_nil)
            (fetch_atop hf).room
          exact ih.leaveFrame hn (Nat.le_of_lt (Nat.lt_of_lt_of_le hlt hk))
        · exact ih.carryOut hscript h hf hk

end Machine

namespace Flow

variable {m : Machine κ} {s : Stage κ} {script : Script κ}

/-- **A script that goes forward ends** (`Script.Forward`), whatever the limit of frames is and
whoever runs it when: a bound of the lines that it runs is known from its length and from the room
for frames. -/
theorem exec_ends (code : Code κ) (hscript : script.Forward) (m : Machine κ) (s : Stage κ) :
    ∃ x t, perform (body code) ((script.lines + 2) ^ (m.maxFrames - m.depth + 1) + 1)
      (exec m script) s = some (x, t) := by
  rcases Nat.lt_or_ge m.depth m.maxFrames with hroom | hfull
  · have hforth : Machine.Forth script { m with frames := .main script :: m.frames } m.depth
        [.main script] :=
      ⟨⟨m.frames, rfl, rfl⟩, List.forall_mem_singleton.mpr
        ⟨rfl, fun k hk => absurd (hk.elim id id) List.not_mem_nil⟩⟩
    have hends :=
      Machine.Forth.ends code hscript m.depth _ _ _ _ s hforth (Frame.toil_main script _)
    rw [perform_exec hroom]
    obtain ⟨⟨x, t⟩, hx⟩ := Option.isSome_iff_exists.mp hends
    exact ⟨x, t, hx⟩
  · exact ⟨_, _, perform_exec_full hfull script _ s⟩

end Flow

/-! ## A function that calls itself -/

namespace Endless

/-- A script whose function only calls itself (`Instr.call`). -/
def script : Script App.sample where
  functions := [⟨"again", 0, .code [.pushFun 0, .call 0]⟩]
  code := [.pushFun 0, .call 0]

/-- A machine with room for three frames. -/
def machine : Machine App.sample :=
  .new .sample 1 3

/-- The stage on which its actor is there. -/
def stage : Stage App.sample :=
  (Stage.allocate Code.sample .root .sample Moment.sample).2

theorem script_forward : script.Forward where
  down is his ip i target hi ht := by
    have hmem := List.mem_of_getElem? hi
    obtain rfl : is = [.pushFun 0, .call 0] := by simpa [Script.blocks, script] using his
    rcases List.mem_pair.mp hmem with rfl | rfl <;> exact absurd ht (by simp [Instr.target?])
  native is _ k _ f hf := by
    obtain rfl : f = ⟨"again", 0, .code [.pushFun 0, .call 0]⟩ := by
      simpa [script] using List.mem_of_getElem? hf
    exact ⟨_, rfl⟩
  alone is his i hi := by
    obtain rfl : is = [.pushFun 0, .call 0] := by simpa [Script.blocks, script] using his
    rcases List.mem_pair.mp hi with rfl | rfl <;> rfl

/-- **Calling itself** (`script`) comes to an end when there is no room for a further frame. -/
theorem recursion_ends :
    script.Forward ∧
    (∃ x t, Flow.perform (body Code.sample)
      ((script.lines + 2) ^ (machine.maxFrames - machine.depth + 1) + 1)
        (Flow.exec machine script) stage = some (x, t)) ∧
    (Flow.perform (body Code.sample) 7 (Flow.exec machine script) stage).map
      (fun x => (x.1.1.isNone, x.1.2.depth, x.2.platform.raised.map fun e => e.error)) =
        some (true, 0, [.script (.frameOverflow 3)]) :=
  ⟨script_forward, Flow.exec_ends Code.sample script_forward machine stage, by decide +kernel⟩

end Endless

end Troupe
