/-
  FusedQuery/Proofs/Interchange/Stages.lean
  =========================================
  **Stages that are written in two ways.**

  Some stages do what others do that count differently: by a position, by what is left, or by
  the number of skips that all stages share.  `Twins` lists pairs of the first two sorts, with
  the state that either side has come to; the skips that they count are the same, so any stages
  may stand around them (`twins_simulation`, `all_context`).

  A window that is cut out by a position leaves the number of skips alone, and one that is cut
  out by a skip does not (`Window`).  They do the same where no other stage looks at that number
  (`window_simulation`, `unskipping_context`).
-/
import Mathlib.Data.UInt
import FusedQuery.Proofs.Interchange.Simulation
import FusedQuery.Proofs.Meaning.Sweep

namespace FusedQuery

variable {σ : Type}

/-! ### Pairs that count the same skips -/

/-- The test that fails where the given one does, and else answers the opposite. -/
def Predicate.negate (test : Predicate σ) : Predicate σ := fun v => do return !(← test v)

/-- Lists of stages of which each does the work of the other, from the states they are in. -/
inductive Stage.Twins : List (Stage σ) → List (Stage σ) → Prop
  | firstWhere (test) : Twins [.first (some test)] [.filter test, .first none]
  | reject (test) : Twins [.reject test] [.filter test.negate]
  | first : Twins [.first none] [.first none]
  | firstTake : Twins [.first none] [.take 1 0]
  | firstSlice : Twins [.first none] [.slice 0 1 0]
  | get {index bound pos} : bound.toNat = index.toNat + 1 → pos ≤ index →
      Twins [.get index pos] [.slice index bound pos]
  | take (m n taken) : Twins [.take m taken, .take n taken] [.take (min m n) taken]
  | skip (m n) : Twins [.skip m, .skip n] [.skip (max m n)]

theorem Stage.Twins.any_canStop {L L' : List (Stage σ)} (h : Twins L L') :
    L.any canStop = L'.any canStop := by
  cases h <;> rfl

theorem Stage.Twins.ne_nil {L L' : List (Stage σ)} (h : Twins L L') : L ≠ [] ∧ L' ≠ [] := by
  cases h <;> exact ⟨List.cons_ne_nil _ _, List.cons_ne_nil _ _⟩

namespace Line

/-- Twins as a relation of stages, whatever the number of skips. -/
abbrev TwinStages : Stages.Relation σ := fun _ L _ L' => Stage.Twins L L'

/-- A transit that comes to the same in two lists of stages, which are twins after it or have
    asked to stop. -/
theorem matches_of_eq {t u : Transit σ} (hflow : t.flow = u.flow) (hworld : t.world = u.world)
    (hcontrol : t.control = u.control)
    (hstages : t.control.stop = false → Stage.Twins t.stages u.stages) :
    t.Matches Eq TwinStages u where
  flow := hflow
  world := hworld
  control := by
    rw [hcontrol]
    exact ⟨rfl, rfl, rfl⟩
  stages := hstages

theorem matches_of_stop {t u : Transit σ} (hflow : t.flow = u.flow) (hworld : t.world = u.world)
    (hcontrol : t.control = u.control) (hstop : t.control.stop = true) :
    t.Matches Eq TwinStages u := by
  apply matches_of_eq hflow hworld hcontrol
  intro hgoes
  rw [hstop] at hgoes
  cases hgoes

section Twins

variable (c : Control) (item : Value) (w : World σ)

theorem firstWhere_matches (test : Predicate σ) :
    (transit c item w [.first (some test)]).Matches Eq TwinStages
      (transit c item w [.filter test, .first none]) := by
  simp only [transit, Stage.step, Stage.Step.ofAct, Act.run_bind]
  rcases ((test item).run w).result with fault | passed
  · exact matches_of_eq rfl rfl rfl fun _ => .firstWhere test
  · cases passed with
    | true => exact matches_of_stop rfl rfl rfl rfl
    | false => exact matches_of_eq rfl rfl rfl fun _ => .firstWhere test

theorem reject_matches (test : Predicate σ) :
    (transit c item w [.reject test]).Matches Eq TwinStages
      (transit c item w [.filter test.negate]) := by
  rw [transit_singleton, transit_singleton]
  simp only [Stage.step, Stage.Step.ofAct, Predicate.negate, Act.run_bind]
  rcases ((test item).run w).result with fault | passed
  · exact matches_of_eq rfl rfl rfl fun _ => .reject test
  · exact matches_of_eq rfl rfl rfl fun _ => .reject test

theorem first_matches :
    (transit c item w [.first none]).Matches Eq TwinStages (transit c item w [.first none]) :=
  matches_of_stop rfl rfl rfl rfl

/-- The first element is the last for both. -/
theorem firstTake_matches :
    (transit c item w [.first none]).Matches Eq TwinStages (transit c item w [.take 1 0]) :=
  matches_of_stop rfl rfl rfl rfl

theorem firstSlice_matches :
    (transit c item w [.first none]).Matches Eq TwinStages (transit c item w [.slice 0 1 0]) :=
  matches_of_stop rfl rfl rfl rfl

theorem get_matches {index bound pos : UInt64} (hbound : bound.toNat = index.toNat + 1)
    (hpos : pos ≤ index) :
    (transit c item w [.get index pos]).Matches Eq TwinStages
      (transit c item w [.slice index bound pos]) := by
  have hle := UInt64.le_iff_toNat_le.mp hpos
  have hlt : pos < bound := UInt64.lt_iff_toNat_lt.mpr (by omega)
  have hnext := toNat_succ_of_lt hlt
  have hinside : ¬ bound ≤ pos := UInt64.not_le.mpr hlt
  rw [transit_singleton, transit_singleton]
  simp only [Stage.step, if_neg hinside]
  by_cases hhere : pos = index
  · subst hhere
    have hend : bound ≤ pos + 1 := UInt64.le_iff_toNat_le.mpr (by omega)
    simp only [if_pos hend, ↓reduceIte]
    exact matches_of_stop (by simp [Flow.forwardIf]) rfl rfl rfl
  · have hne : pos.toNat ≠ index.toNat := fun h => hhere (UInt64.toNat_inj.mp h)
    have hbefore : ¬ index ≤ pos := UInt64.not_le.mpr (UInt64.lt_iff_toNat_lt.mpr (by omega))
    have hend : ¬ bound ≤ pos + 1 :=
      UInt64.not_le.mpr (UInt64.lt_iff_toNat_lt.mpr (by omega))
    have hon : pos + 1 ≤ index := UInt64.le_iff_toNat_le.mpr (by omega)
    simp only [if_neg hhere, if_neg hend, decide_eq_false hbefore]
    exact matches_of_eq rfl rfl rfl fun _ => .get hbound hon

/-- The smaller of the two limits is reached first, and both are asked for a stop then. -/
theorem take_matches (m n taken : UInt64) :
    (transit c item w [.take m taken, .take n taken]).Matches Eq TwinStages
      (transit c item w [.take (min m n) taken]) := by
  have hmin := UInt64.toNat_min m n
  rw [transit_singleton]
  simp only [transit, Stage.step]
  by_cases hm : m ≤ taken
  · have hle := UInt64.le_iff_toNat_le.mp hm
    have hboth : min m n ≤ taken := UInt64.le_iff_toNat_le.mpr (by omega)
    simp only [if_pos hm, if_pos hboth]
    exact matches_of_stop rfl rfl rfl rfl
  · have hlt := UInt64.lt_iff_toNat_lt.mp (UInt64.not_le.mp hm)
    have hnext := toNat_succ_of_lt (UInt64.not_le.mp hm)
    simp only [if_neg hm]
    by_cases hn : n ≤ taken
    · have hle := UInt64.le_iff_toNat_le.mp hn
      have hboth : min m n ≤ taken := UInt64.le_iff_toNat_le.mpr (by omega)
      simp only [if_pos hn, if_pos hboth]
      refine matches_of_stop rfl rfl ?_ rfl
      split <;> rfl
    · have hlt' := UInt64.lt_iff_toNat_lt.mp (UInt64.not_le.mp hn)
      have hboth : ¬ min m n ≤ taken :=
        UInt64.not_le.mpr (UInt64.lt_iff_toNat_lt.mpr (by omega))
      have hreached : taken + 1 = min m n ↔ taken + 1 = m ∨ taken + 1 = n := by
        simp only [← UInt64.toNat_inj]
        omega
      simp only [if_neg hn, if_neg hboth]
      refine matches_of_eq rfl rfl ?_ fun _ => .take m n (taken + 1)
      by_cases hfirst : taken + 1 = m
      · rw [if_pos hfirst, if_pos (hreached.mpr (Or.inl hfirst))]
        split <;> rfl
      · simp only [hreached, hfirst, false_or, ↓reduceIte]

theorem skip_matches (m n : UInt64) :
    (transit c item w [.skip m, .skip n]).Matches Eq TwinStages
      (transit c item w [.skip (max m n)]) := by
  have hmax := UInt64.toNat_max m n
  have hboth : c.skipped < max m n ↔ c.skipped < m ∨ c.skipped < n := by
    simp only [UInt64.lt_iff_toNat_lt]
    omega
  rw [transit_singleton]
  simp only [transit, Stage.step, hboth]
  by_cases hm : c.skipped < m
  · simp only [hm, true_or, ↓reduceIte]
    exact matches_of_eq rfl rfl rfl fun _ => .skip m n
  · by_cases hn : c.skipped < n
    · simp only [hm, hn, false_or, ↓reduceIte]
      exact matches_of_eq rfl rfl rfl fun _ => .skip m n
    · simp only [hm, hn, false_or, ↓reduceIte]
      exact matches_of_eq rfl rfl rfl fun _ => .skip m n

end Twins

theorem twins_simulation : Simulation Eq (TwinStages (σ := σ)) where
  alike := by
    intro c d L L' hlike htwins item w
    obtain rfl := hlike.eq
    cases htwins with
    | firstWhere test => exact firstWhere_matches c item w test
    | reject test => exact reject_matches c item w test
    | first => exact first_matches c item w
    | firstTake => exact firstTake_matches c item w
    | firstSlice => exact firstSlice_matches c item w
    | get hbound hpos => exact get_matches c item w hbound hpos
    | take m n taken => exact take_matches c item w m n taken
    | skip m n => exact skip_matches c item w m n

/-- Any stages may stand around twins. -/
theorem all_context : Context Eq (fun _ => True) (TwinStages (σ := σ)) where
  stays := fun _ _ _ h => h
  alike := by
    intro stage c d item w _ hlike
    obtain rfl := hlike.eq
    exact ⟨rfl, rfl, ⟨rfl, rfl, rfl⟩, rfl⟩
  moves := fun _ _ _ _ h => h

/-! ### A window by position, and by skips -/

/-- The position has moved over all elements; the skips went up to the start of the window, and
    what was taken is counted from there. -/
inductive Window (start bound : UInt64) : Stages.Relation σ
  | mk {k l pos taken} : pos < bound → l.toNat = min pos.toNat start.toNat →
      taken.toNat = pos.toNat - start.toNat →
      Window start bound k [.slice start bound pos] l [.skip start, .take (bound - start) taken]

theorem Window.any_canStop {start bound k l : UInt64} {L L' : List (Stage σ)}
    (h : Window start bound k L l L') : L.any Stage.canStop = L'.any Stage.canStop := by
  cases h
  rfl

theorem Window.ne_nil {start bound k l : UInt64} {L L' : List (Stage σ)}
    (h : Window start bound k L l L') : L ≠ [] ∧ L' ≠ [] := by
  cases h
  exact ⟨List.cons_ne_nil _ _, List.cons_ne_nil _ _⟩

theorem window_simulation {start bound : UInt64} (hwindow : start < bound) :
    Simulation (fun _ _ => True) (Window start bound (σ := σ)) where
  alike := by
    rintro c d _ _ ⟨hmayStop, hstop, -⟩ ⟨hpos, hskipped, htaken⟩ item w
    rename_i pos taken
    have hstart := UInt64.lt_iff_toNat_lt.mp hwindow
    have hhere := UInt64.lt_iff_toNat_lt.mp hpos
    have hnext := toNat_succ_of_lt hpos
    have hlimit := UInt64.toNat_sub_of_le bound start (UInt64.le_of_lt hwindow)
    have hinside : ¬ bound ≤ pos := UInt64.not_le.mpr hpos
    have hend : bound ≤ pos + 1 ↔ bound.toNat = pos.toNat + 1 := by
      rw [UInt64.le_iff_toNat_le]
      omega
    rw [transit_singleton]
    simp only [transit, Stage.step, if_neg hinside]
    by_cases hbefore : pos < start
    · -- Before the window: the skip counts, and the position alone does as well.
      have hlt := UInt64.lt_iff_toNat_lt.mp hbefore
      have hskip : d.skipped < start := UInt64.lt_iff_toNat_lt.mpr (by omega)
      have hcount := Control.toNat_countSkip hskip
      have hgoes : ¬ bound ≤ pos + 1 := by
        rw [hend]
        omega
      have hoff : ¬ start ≤ pos := UInt64.not_le.mpr hbefore
      simp only [if_pos hskip, if_neg hgoes, decide_eq_false hoff]
      refine ⟨rfl, rfl, ⟨hmayStop, hstop, trivial⟩, fun _ => ⟨?_, ?_, ?_⟩⟩
      · exact UInt64.lt_iff_toNat_lt.mpr (by omega)
      · show d.countSkip.skipped.toNat = min (pos + 1).toNat start.toNat
        omega
      · omega
    · -- In the window: the skips are done, and both count what is handed on.
      have hge := UInt64.le_iff_toNat_le.mp (UInt64.not_lt.mp hbefore)
      have hskip : ¬ d.skipped < start :=
        UInt64.not_lt.mpr (UInt64.le_iff_toNat_le.mpr (by omega))
      have hleft : taken < bound - start := UInt64.lt_iff_toNat_lt.mpr (by omega)
      have hmore := toNat_succ_of_lt hleft
      have hlast : taken + 1 = bound - start ↔ bound ≤ pos + 1 := by
        rw [hend, ← UInt64.toNat_inj]
        omega
      have hon : start ≤ pos := UInt64.not_lt.mp hbefore
      simp only [if_neg hskip, if_neg (UInt64.not_le.mpr hleft), decide_eq_true hon, hlast]
      refine ⟨rfl, rfl, ?_, ?_⟩
      · split
        · exact ⟨hmayStop, rfl, trivial⟩
        · exact ⟨hmayStop, hstop, trivial⟩
      · split
        · intro hhalted
          cases hhalted
        · next hgoes =>
          rw [hend] at hgoes
          refine fun _ => ⟨?_, ?_, ?_⟩
          · exact UInt64.lt_iff_toNat_lt.mpr (by omega)
          · show d.skipped.toNat = min (pos + 1).toNat start.toNat
            omega
          · omega

/-- A stage that does not wait for skips does the same whatever their number, which it leaves
    alone. -/
theorem step_of_unskipping {stage : Stage σ} (h : stage.skipCount = 0) (c : Control)
    (item : Value) (w : World σ) :
    stage.step c item w = ((stage.step {} item w).skipping c.skipped).onto c := by
  have hle : stage.skipCount ≤ c.skipped := h ▸ UInt64.zero_le
  rw [stage.step_onto c, Stage.step_of_le hle, h]

/-- Around a window no stage may skip. -/
theorem unskipping_context (start bound : UInt64) :
    Context (fun _ _ => True) (fun stage : Stage σ => stage.skipCount = 0)
      (Window start bound) where
  stays := by
    intro stage c item w h
    rw [Stage.skipCount_step, h]
  alike := by
    intro stage c d item w h hlike
    rw [step_of_unskipping h c, step_of_unskipping h d]
    obtain ⟨flow, next, ⟨_, stop, _⟩, world⟩ := stage.step {} item w
    refine ⟨rfl, rfl, ?_, rfl⟩
    cases stop with
    | true => exact ⟨hlike.mayStop, rfl, trivial⟩
    | false => exact ⟨hlike.mayStop, hlike.stop, trivial⟩
  moves := by
    intro stage c d L L' item w h _ hwindow
    rw [step_of_unskipping h c, step_of_unskipping h d]
    exact hwindow

end Line

end FusedQuery
