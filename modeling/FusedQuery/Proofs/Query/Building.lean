/-
  FusedQuery/Proofs/Query/Building.lean
  =====================================
  **What building does to a query.**

  An operator adds a filter or a map, which may merge with the last stage; or one stage that
  merges with nothing; or, if it is the slice that keeps everything, no stage at all
  (`Operator.adds`).  Whatever it adds, only the stages change (`add_eq`).
-/
import FusedQuery.Query.Operator

namespace FusedQuery

variable {σ : Type}

/-- A stage that has learnt nothing, that is not merged, and that merges with nothing. -/
structure Stage.Alone (stage : Stage σ) : Prop where
  reset : stage.reset = stage
  isFused : stage.isFused = false
  fuse? (new : Fusible σ) : stage.fuse? new = none

namespace Operator

def fusible? : Operator σ → Option (Fusible σ)
  | .filter test => some (.filter test)
  | .map change => some (.map change)
  | _ => none

/-- The operator ends a row of filters and maps: it is neither, and adds a stage. -/
def Separates (operator : Operator σ) : Prop :=
  operator.fusible? = none ∧ operator ≠ .slice 0 none

/-- What an operator adds to any query. -/
inductive Adds (operator : Operator σ) : Prop where
  | fusible (new : Fusible σ) (hnew : operator.fusible? = some new)
      (hadd : ∀ q : Query σ, q.add operator = q.pushFusible new)
  | nothing (hslice : operator = .slice 0 none) (hadd : ∀ q : Query σ, q.add operator = q)
  | alone (stage : Stage σ) (hseparates : operator.Separates) (halone : stage.Alone)
      (hadd : ∀ q : Query σ, q.add operator = q.push stage)

theorem adds (operator : Operator σ) : operator.Adds := by
  cases operator with
  | filter test => exact .fusible (.filter test) rfl fun _ => rfl
  | map change => exact .fusible (.map change) rfl fun _ => rfl
  | slice start end? =>
    by_cases houtside : (start < 0 || end?.any (· < 0)) = true
    · have hother : (slice start end? : Operator σ) ≠ .slice 0 none := by
        rintro ⟨⟩
        exact absurd houtside (by decide)
      refine .alone .halt ⟨rfl, hother⟩ ⟨rfl, rfl, fun _ => rfl⟩ fun q => ?_
      rw [Query.add, Query.addSlice, if_pos houtside]
    · by_cases hall : (start = 0 && end?.isNone) = true
      · obtain ⟨hstart, hend⟩ := Bool.and_eq_true_iff.mp hall
        have hslice : (slice start end? : Operator σ) = .slice 0 none := by
          rw [of_decide_eq_true hstart, Option.isNone_iff_eq_none.mp hend]
        refine .nothing hslice fun q => ?_
        rw [Query.add, Query.addSlice, if_neg houtside, if_pos hall]
      · have hother : (slice start end? : Operator σ) ≠ .slice 0 none := by
          rintro ⟨⟩
          exact hall rfl
        refine .alone (.slice start.toUInt64 ((end?.map Int64.toUInt64).getD Query.openBound) 0)
          ⟨rfl, hother⟩ ⟨rfl, rfl, fun _ => rfl⟩ fun q => ?_
        rw [Query.add, Query.addSlice, if_neg houtside, if_neg hall]
  | get n =>
    have hother : (get n : Operator σ).Separates := ⟨rfl, nofun⟩
    by_cases hneg : n < 0
    · refine .alone .halt hother ⟨rfl, rfl, fun _ => rfl⟩ fun q => ?_
      rw [Query.add, Query.addGet, if_pos hneg]
    · by_cases hzero : n = 0
      · refine .alone (.first none) hother ⟨rfl, rfl, fun _ => rfl⟩ fun q => ?_
        rw [Query.add, Query.addGet, if_neg hneg, if_pos hzero]
      · refine .alone (.get n.toUInt64 0) hother ⟨rfl, rfl, fun _ => rfl⟩ fun q => ?_
        rw [Query.add, Query.addGet, if_neg hneg, if_neg hzero]
  | _ => exact .alone _ ⟨rfl, nofun⟩ ⟨rfl, rfl, fun _ => rfl⟩ fun _ => rfl

end Operator

namespace Query

theorem pushFusible_eq (q : Query σ) (new : Fusible σ) :
    q.pushFusible new = { q with stages := (q.pushFusible new).stages } := by
  simp only [pushFusible]
  cases (if q.settings.fuse then q.stages.getLast?.bind (·.fuse? new) else none) <;> rfl

/-- Building changes the stages and nothing else. -/
theorem add_eq (q : Query σ) (operator : Operator σ) :
    q.add operator = { q with stages := (q.add operator).stages } := by
  cases operator.adds with
  | fusible new _ hadd =>
    rw [hadd]
    exact q.pushFusible_eq new
  | nothing _ hadd => rw [hadd]
  | alone stage _ _ hadd =>
    rw [hadd]
    rfl

end Query

end FusedQuery
