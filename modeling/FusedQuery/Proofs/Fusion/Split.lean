/-
  FusedQuery/Proofs/Fusion/Split.lean
  ===================================
  **A merged stage does the work of its two parts.**

  `Stage.split` takes a merged stage apart again.  An element meets the same callbacks with the
  same arguments in the merged stage and in its parts, comes to the same end, and leaves the
  same control and world (`transit_split`).  Stage by stage this carries over to whole lists of
  stages (`transit_flatMap_split`), to one element on its way into a terminal
  (`dispatch_split`), and to a source (`traverse_split`).
-/
import FusedQuery.Stage.Fusion
import FusedQuery.Proofs.Line.Loop

namespace FusedQuery

variable {σ ρ : Type}

/-! ### Taking stages apart -/

namespace Stage

/-- The stages whose work a stage does. -/
def split : Stage σ → List (Stage σ)
  | .filterFilter early late => [.filter early, .filter late]
  | .filterMap test change => [.filter test, .map change]
  | .mapFilter change test => [.map change, .filter test]
  | .mapMap early late => [.map early, .map late]
  | stage => [stage]

theorem split_of_fuse? {stage merged : Stage σ} {new : Fusible σ}
    (h : stage.fuse? new = some merged) : merged.split = stage.split ++ new.stage.split := by
  cases stage with
  | filter early =>
    cases new with
    | filter late => obtain rfl := Option.some.inj h; rfl
    | map change => obtain rfl := Option.some.inj h; rfl
  | map early =>
    cases new with
    | filter test => obtain rfl := Option.some.inj h; rfl
    | map late => obtain rfl := Option.some.inj h; rfl
  | _ => cases h

@[simp]
theorem split_stage (new : Fusible σ) : new.stage.split = [new.stage] := by
  cases new <;> rfl

theorem length_split (stage : Stage σ) :
    stage.split.length = 1 + if stage.isFused then 1 else 0 := by
  cases stage <;> rfl

theorem countP_isFused_split (stage : Stage σ) : stage.split.countP isFused = 0 := by
  cases stage <;> rfl

theorem split_of_not_isFused {stage : Stage σ} (h : stage.isFused = false) :
    stage.split = [stage] := by
  cases stage with
  | filterFilter early late => cases h
  | filterMap test change => cases h
  | mapFilter change test => cases h
  | mapMap early late => cases h
  | _ => rfl

theorem split_reset (stage : Stage σ) : stage.reset.split = stage.split.map reset := by
  cases stage <;> rfl

theorem any_canStop_split (stage : Stage σ) : stage.split.any canStop = stage.canStop := by
  cases stage <;> rfl

end Stage

namespace Line

/-! ### One element -/

/-- An element fares the same in a stage and in its parts.  The four merged stages each run
    their two callbacks in turn, so the cases are the outcomes of the first of them. -/
theorem transit_split (control : Control) (item : Value) (world : World σ) (stage : Stage σ) :
    transit control item world stage.split =
      (transit control item world [stage]).mapStages (·.flatMap Stage.split) := by
  cases hfused : stage.isFused with
  | false =>
    have hstep : (stage.step control item world).stage.isFused = false :=
      (stage.isFused_step control item world).trans hfused
    rw [Stage.split_of_not_isFused hfused, transit_singleton]
    simp only [Transit.mapStages, List.flatMap_cons, List.flatMap_nil, List.append_nil,
      Stage.split_of_not_isFused hstep]
  | true =>
    rw [transit_singleton]
    cases stage with
    | filterFilter early late =>
      simp only [Stage.split, transit, Stage.step, Stage.Step.ofAct, Act.run_bind]
      rcases ((early item).run world).result with fault | passed
      · rfl
      · cases passed with
        | false => rfl
        | true =>
          simp only [Act.run_bind, Act.run_pure, Flow.forwardIf, ↓reduceIte]
          rcases ((late item).run ((early item).run world).world).result with fault | passed
          · rfl
          · cases passed <;> rfl
    | filterMap test change =>
      simp only [Stage.split, transit, Stage.step, Stage.Step.ofAct, Act.run_bind]
      rcases ((test item).run world).result with fault | passed
      · rfl
      · cases passed with
        | false => rfl
        | true =>
          simp only [Act.run_bind, Act.run_pure, Flow.forwardIf, ↓reduceIte]
          rcases ((change item).run ((test item).run world).world).result with fault | changed
          · rfl
          · rfl
    | mapFilter change test =>
      simp only [Stage.split, transit, Stage.step, Stage.Step.ofAct, Act.run_bind]
      rcases ((change item).run world).result with fault | changed
      · rfl
      · simp only [Act.run_pure]
        rcases ((test changed).run ((change item).run world).world).result with fault | passed
        · rfl
        · cases passed <;> rfl
    | mapMap early late =>
      simp only [Stage.split, transit, Stage.step, Stage.Step.ofAct, Act.run_bind]
      rcases ((early item).run world).result with fault | changed
      · rfl
      · simp only [Act.run_pure]
        rcases ((late changed).run ((early item).run world).world).result with fault | last
        · rfl
        · rfl
    | _ => cases hfused

theorem transit_flatMap_split (control : Control) (item : Value) (world : World σ)
    (stages : List (Stage σ)) :
    transit control item world (stages.flatMap Stage.split) =
      (transit control item world stages).mapStages (·.flatMap Stage.split) := by
  induction stages generalizing control item world with
  | nil => rfl
  | cons stage rest ih =>
    rw [List.flatMap_cons, transit_append, transit_split,
      transit_cons control item world stage rest]
    cases hflow : (transit control item world [stage]).flow with
    | error fault =>
      simp only [Transit.onward, Transit.mapStages, hflow, List.flatMap_append]
    | ok flow =>
      cases flow with
      | drop => simp only [Transit.onward, Transit.mapStages, hflow, List.flatMap_append]
      | forward next =>
        simp only [Transit.onward, Transit.mapStages, hflow, List.flatMap_append, ih]

/-! ### Whole lines -/

/-- The line with every merged stage taken apart. -/
def split (line : Line σ ρ) : Line σ ρ :=
  { line with stages := line.stages.flatMap Stage.split }

theorem dispatch_split (line : Line σ ρ) (item : Value) :
    line.split.dispatch item = (line.dispatch item).map split := by
  simp only [dispatch_eq_deliver, split, transit_flatMap_split]
  cases hflow : (transit line.control item line.world line.stages).flow with
  | error fault => simp only [Transit.deliver, Transit.mapStages, Passage.map, split, hflow]
  | ok flow =>
    cases flow <;>
      simp only [Transit.deliver, Transit.mapStages, Passage.map, split, hflow]

theorem any_canStop_flatMap_split (stages : List (Stage σ)) :
    (stages.flatMap Stage.split).any Stage.canStop = stages.any Stage.canStop := by
  induction stages with
  | nil => rfl
  | cons stage rest ih =>
    rw [List.flatMap_cons, List.any_append, Stage.any_canStop_split, ih, List.any_cons]

theorem canStop_split (line : Line σ ρ) : line.split.canStop = line.canStop := by
  simp only [canStop, split, any_canStop_flatMap_split]

theorem traverse_split {line : Line σ ρ} (h : line.Ready) (source : List Value) :
    line.split.traverse source = (line.traverse source).map split := by
  have hsplit : line.split.Ready := ⟨h.stop, h.mayStop.trans line.canStop_split.symm⟩
  rw [traverse_eq h, traverse_eq hsplit]
  exact drainUntilStop_map split (fun _ => rfl) dispatch_split line 0 source

end Line

end FusedQuery
