/-
  FusedQuery/Proofs/Skip/Counter.lean
  ===================================
  **The number that all skips share.**

  The trace of a run is looked at once more, with a note at every moment whether a skip has just
  dropped its element (`Sight`).  The number of skips that the control shows at a moment is then
  the number of such notes up to it, and never more than the largest count of a skip
  (`skips_share_counter`).  What each single skip drops is settled by this number and by the
  counts of those before it; two skips in a row are therefore one with the larger count.
-/
import FusedQuery.Proofs.Interchange.Operators
import FusedQuery.Proofs.Skip.Drops
import FusedQuery.Proofs.Trace.Gate

namespace FusedQuery

variable {σ ρ : Type}

/-! ### Drops in a trace -/

/-- A moment of a run, and whether it is that of a skip that has dropped its element. -/
structure Sight where
  moment : Moment
  drops : Bool

namespace Stage

/-- The stage is a skip, and drops the element. -/
def skipDrops (stage : Stage σ) (control : Control) (item : Value) (w : World σ) : Bool :=
  match stage, (stage.step control item w).flow with
  | .skip _, .ok .drop => true
  | _, _ => false

/-- What a skip drops is counted, and nothing else is. -/
theorem skipped_step_eq (stage : Stage σ) (control : Control) (item : Value) (w : World σ) :
    (stage.step control item w).control.skipped.toNat =
      control.skipped.toNat + (stage.skipDrops control item w).toNat := by
  rcases stage.skipped_step_cases control item w with ⟨hlt, hflow, hcount⟩ | ⟨hle, hsame⟩
  · cases stage with
    | skip count =>
      simp only [skipDrops, hflow]
      exact hcount
    | _ => exact absurd hlt UInt64.not_lt_zero
  · have hkeeps : stage.skipDrops control item w = false := by
      cases stage with
      | skip count =>
        have hnot : ¬ control.skipped < count := UInt64.not_lt.mpr hle
        simp only [skipDrops, step, if_neg hnot]
      | _ => rfl
    rw [hsame, hkeeps]
    rfl

end Stage

namespace Sight

/-- At every moment, the control shows as many skips as there were at first and drops since. -/
def Counted (first : Nat) (sights : List Sight) : Prop :=
  ∀ before s after, sights = before ++ s :: after →
    s.moment.control.skipped.toNat = first + (before ++ [s]).countP drops

theorem Counted.nil (first : Nat) : Counted first [] := by
  intro before s after hsplit
  cases before <;> cases hsplit

theorem Counted.cons {first : Nat} {s : Sight} {rest : List Sight}
    (hs : s.moment.control.skipped.toNat = first + s.drops.toNat)
    (hrest : Counted s.moment.control.skipped.toNat rest) : Counted first (s :: rest) := by
  have hone : [s].countP drops = s.drops.toNat := by
    rw [List.countP_singleton]
    cases s.drops <;> rfl
  intro before s' after hsplit
  cases before with
  | nil =>
    obtain ⟨rfl, -⟩ := List.cons.inj hsplit
    rw [List.nil_append, hone, hs]
  | cons _ before =>
    obtain ⟨rfl, hlater⟩ := List.cons.inj hsplit
    have hcount := hrest before s' after hlater
    rw [List.cons_append, ← List.singleton_append, List.countP_append, hone]
    omega

/-- The last control shows all drops. -/
theorem Counted.last {control : Control} {sights : List Sight}
    (h : Counted control.skipped.toNat sights) :
    (Moment.lastControl control (sights.map moment)).skipped.toNat =
      control.skipped.toNat + sights.countP drops := by
  rcases List.eq_nil_or_concat sights with rfl | ⟨front, s, rfl⟩
  · rfl
  · rw [List.concat_eq_append] at h ⊢
    rw [List.map_append, Moment.lastControl_append]
    exact h front s [] rfl

theorem Counted.append {first : Nat} {front rest : List Sight} (hfront : Counted first front)
    (hrest : Counted (first + front.countP drops) rest) : Counted first (front ++ rest) := by
  intro before s after hsplit
  rcases List.append_eq_append_iff.mp hsplit with ⟨between, hbefore, hlater⟩ | ⟨onward, hin, hs⟩
  · have hcount := hrest between s after hlater
    rw [hbefore, List.append_assoc, List.countP_append]
    omega
  · cases onward with
    | nil =>
      rw [List.append_nil] at hin
      subst hin
      have hcount := hrest [] s after hs.symm
      rw [List.countP_append]
      exact hcount.trans (Nat.add_assoc _ _ _)
    | cons _ onward =>
      obtain ⟨rfl, -⟩ := List.cons.inj hs
      exact hfront before s onward hin

end Sight

namespace Line

/-! ### The trace of a line, with drops -/

/-- The sights of one element on its way. -/
def sendSights (control : Control) (terminal : Terminal σ ρ) (item : Value) (w : World σ) :
    List (Stage σ) → List Sight
  | [] => [⟨⟨.accept, (terminal.accept control item w).control⟩, false⟩]
  | stage :: rest =>
    let step := stage.step control item w
    ⟨⟨.step, step.control⟩, stage.skipDrops control item w⟩ ::
      match step.flow with
      | .error _ => []
      | .ok .drop => []
      | .ok (.forward next) => sendSights step.control terminal next step.world rest

def dispatchSights (line : Line σ ρ) (item : Value) : List Sight :=
  ⟨⟨.send, line.control⟩, false⟩ ::
    sendSights line.control line.terminal item line.world line.stages

def drainUntilStopSights (line : Line σ ρ) : List Value → List Sight
  | [] => []
  | item :: rest =>
    if line.control.stop then []
    else
      let passage := line.dispatch item
      line.dispatchSights item ++
        match passage.status with
        | .ok () => passage.line.drainUntilStopSights rest
        | .error _ => []

/-- They are the moments of the trace. -/
theorem map_moment_sendSights (control : Control) (terminal : Terminal σ ρ) (item : Value)
    (w : World σ) (stages : List (Stage σ)) :
    (sendSights control terminal item w stages).map Sight.moment =
      sendMoments control terminal item w stages := by
  induction stages generalizing control item w with
  | nil => rfl
  | cons stage rest ih =>
    rw [sendSights, sendMoments, List.map_cons]
    congr 1
    rcases (stage.step control item w).flow with fault | flow
    · rfl
    · cases flow with
      | drop => rfl
      | forward next => exact ih _ next _

theorem map_moment_dispatchSights (line : Line σ ρ) (item : Value) :
    (line.dispatchSights item).map Sight.moment = line.dispatchMoments item := by
  rw [dispatchSights, dispatchMoments, List.map_cons, map_moment_sendSights]

theorem map_moment_drainUntilStopSights (line : Line σ ρ) (source : List Value) :
    (line.drainUntilStopSights source).map Sight.moment = line.drainUntilStopMoments source := by
  induction source generalizing line with
  | nil => rfl
  | cons item rest ih =>
    simp only [drainUntilStopSights, drainUntilStopMoments]
    split
    · rfl
    · rw [List.map_append, map_moment_dispatchSights]
      cases (line.dispatch item).status with
      | error fault => rfl
      | ok _ => exact congrArg _ (ih _)

/-! ### The number of skips -/

theorem skipped_accept (terminal : Terminal σ ρ) (control : Control) (item : Value)
    (w : World σ) : (terminal.accept control item w).control.skipped = control.skipped := by
  rw [terminal.accept_eq]
  simp only [Terminal.Acceptance.onto]
  split <;> rfl

theorem counted_sendSights (control : Control) (terminal : Terminal σ ρ) (item : Value)
    (w : World σ) (stages : List (Stage σ)) :
    Sight.Counted control.skipped.toNat (sendSights control terminal item w stages) := by
  induction stages generalizing control item w with
  | nil =>
    have haccept := congrArg UInt64.toNat (skipped_accept terminal control item w)
    exact Sight.Counted.cons haccept (Sight.Counted.nil _)
  | cons stage rest ih =>
    rw [sendSights]
    apply Sight.Counted.cons (stage.skipped_step_eq control item w)
    rcases (stage.step control item w).flow with fault | flow
    · exact Sight.Counted.nil _
    · cases flow with
      | drop => exact Sight.Counted.nil _
      | forward next => exact ih _ next _

theorem counted_dispatchSights (line : Line σ ρ) (item : Value) :
    Sight.Counted line.control.skipped.toNat (line.dispatchSights item) :=
  Sight.Counted.cons rfl
    (counted_sendSights line.control line.terminal item line.world line.stages)

/-- What one element adds to the number is what was dropped of it. -/
theorem skipped_dispatch_eq (line : Line σ ρ) (item : Value) :
    (line.dispatch item).line.control.skipped.toNat =
      line.control.skipped.toNat + (line.dispatchSights item).countP Sight.drops := by
  have hlast := (counted_dispatchSights line item).last
  rw [map_moment_dispatchSights, lastControl_dispatch] at hlast
  exact hlast

theorem counted_drainUntilStopSights (line : Line σ ρ) (source : List Value) :
    Sight.Counted line.control.skipped.toNat (line.drainUntilStopSights source) := by
  induction source generalizing line with
  | nil => exact Sight.Counted.nil _
  | cons item rest ih =>
    have hrest := ih (line.dispatch item).line
    rw [skipped_dispatch_eq] at hrest
    simp only [drainUntilStopSights]
    split
    · exact Sight.Counted.nil _
    · apply (counted_dispatchSights line item).append
      cases (line.dispatch item).status with
      | error fault => exact Sight.Counted.nil _
      | ok _ => exact hrest

/-! ### Its bound -/

theorem skipped_le_of_mem_sendMoments {control : Control} {terminal : Terminal σ ρ}
    {item : Value} {w : World σ} {stages : List (Stage σ)} {m : Moment}
    (h : m ∈ sendMoments control terminal item w stages) :
    m.control.skipped.toNat ≤ max (mostSkips stages) control.skipped.toNat := by
  induction stages generalizing control item w with
  | nil =>
    obtain rfl := List.mem_singleton.mp h
    rw [skipped_accept]
    exact Nat.le_max_right _ _
  | cons stage rest ih =>
    have hmost := mostSkips_cons stage rest
    have hstep : (stage.step control item w).control.skipped.toNat ≤
        max stage.skipCount.toNat control.skipped.toNat := by
      rcases stage.skipped_step_cases control item w with ⟨hlt, -, hcount⟩ | ⟨-, hsame⟩
      · have hnat := UInt64.lt_iff_toNat_lt.mp hlt
        omega
      · rw [hsame]
        exact Nat.le_max_right _ _
    rw [sendMoments] at h
    rcases List.mem_cons.mp h with rfl | hlater
    · show (stage.step control item w).control.skipped.toNat ≤ _
      omega
    · rcases hflow : (stage.step control item w).flow with fault | flow
      · simp only [hflow] at hlater
        cases hlater
      · cases flow with
        | drop =>
          simp only [hflow] at hlater
          cases hlater
        | forward next =>
          simp only [hflow] at hlater
          have honward := ih hlater
          omega

theorem skipped_le_of_mem_drainUntilStopMoments {line : Line σ ρ} {source : List Value}
    {m : Moment} (h : m ∈ line.drainUntilStopMoments source) :
    m.control.skipped.toNat ≤ max (mostSkips line.stages) line.control.skipped.toNat := by
  induction source generalizing line with
  | nil => cases h
  | cons item rest ih =>
    rw [drainUntilStopMoments] at h
    split at h
    · cases h
    · rcases List.mem_append.mp h with hfirst | hlater
      · rcases List.mem_cons.mp hfirst with rfl | hsend
        · exact Nat.le_max_right _ _
        · exact skipped_le_of_mem_sendMoments hsend
      · have hskips := transit_skips line.control item line.world line.stages
        have hmost := mostSkips_of_map_reset (dispatch_kept line item).stages
        cases hstatus : (line.dispatch item).status with
        | error fault =>
          simp only [hstatus] at hlater
          cases hlater
        | ok _ =>
          simp only [hstatus] at hlater
          have hrest := ih hlater
          rw [hmost, skipped_dispatch, hskips.total] at hrest
          exact hrest

end Line

namespace Query

/-! ### Runs -/

/-- The trace of a run with the drops of skips noted. -/
def sights (q : Query σ) (terminal : Terminal σ ρ) (w : World σ) : List Sight :=
  let ready := q.prepare terminal
  ⟨⟨.start, ready.control⟩, false⟩ ::
    match ready.scan? terminal with
    | some _ => []
    | none => (ready.line terminal w).drainUntilStopSights ready.source

variable {q : Query σ} {terminal : Terminal σ ρ} {w : World σ}

theorem map_moment_sights :
    (q.sights terminal w).map Sight.moment = q.moments terminal w := by
  cases hscan : (q.prepare terminal).scan? terminal with
  | none =>
    rw [moments_of_no_scan hscan, sights]
    simp only [hscan, List.map_cons, Line.map_moment_drainUntilStopSights]
    rfl
  | some scan =>
    rw [moments_of_scan hscan, sights]
    simp only [hscan, List.map_cons, List.map_nil]

theorem counted_sights : Sight.Counted 0 (q.sights terminal w) := by
  apply Sight.Counted.cons rfl
  split
  · exact Sight.Counted.nil _
  · exact Line.counted_drainUntilStopSights ((q.prepare terminal).line terminal w) q.source

theorem skipped_le_of_mem_moments {m : Moment} (h : m ∈ q.moments terminal w) :
    m.control.skipped.toNat ≤ mostSkips q.stages := by
  have hmost : mostSkips (q.prepare terminal).stages = mostSkips q.stages :=
    mostSkips_map_reset q.stages
  cases hscan : (q.prepare terminal).scan? terminal with
  | none =>
    rw [moments_of_no_scan hscan] at h
    rcases List.mem_cons.mp h with rfl | hlater
    · exact Nat.zero_le _
    · have hle := Line.skipped_le_of_mem_drainUntilStopMoments hlater
      rw [← hmost]
      exact Nat.le_trans hle (Nat.max_le.mpr ⟨Nat.le_refl _, Nat.zero_le _⟩)
  | some scan =>
    rw [moments_of_scan hscan] at h
    obtain rfl := List.mem_singleton.mp h
    exact Nat.zero_le _

/-- **All skips of a query share one number.**  In every run, successful or failing:

    * a skip drops as many of the elements that reach it as its count is above the largest count
      of those before it, and hands on all later ones,
    * at every moment the number is that of all drops so far, and no more than the largest count;
      so it is at the end.

    The sights are the moments of the run's trace.  Two skips in a row come to one with the larger
    of the two counts, among any other operators. -/
theorem skips_share_counter (q : Query σ) (terminal : Terminal σ ρ) (w : World σ) :
    let line := (q.prepare terminal).line terminal w
    let sent := line.sent q.source
    let sights := q.sights terminal w
    (∀ place n, q.stages[place]? = some (.skip n) →
      line.arrivals (place + 1) sent =
        (line.arrivals place sent).drop (n.toNat - mostSkips (q.stages.take place))) ∧
    sights.map Sight.moment = q.moments terminal w ∧
    (∀ before s after, sights = before ++ s :: after →
      s.moment.control.skipped.toNat = (before ++ [s]).countP Sight.drops ∧
        s.moment.control.skipped.toNat ≤ mostSkips q.stages) ∧
    (q.run terminal w).query.control.skipped.toNat = sights.countP Sight.drops ∧
    ∀ source settings before after m n,
      let skips := (ofSource source settings).addAll (before ++ [.skip m, .skip n] ++ after)
      let skip := (ofSource source settings).addAll (before ++ [.skip (max m n)] ++ after)
      (skips.run terminal w).Matches Eq (skip.run terminal w) ∧
        callsAround source settings before [.skip m, .skip n] after terminal w =
          callsAround source settings before [.skip (max m n)] after terminal w := by
  intro line sent sights
  refine ⟨?_, map_moment_sights, ?_, ?_, ?_⟩
  · intro place n hplace
    have hskip : line.stages[place]? = some (.skip n) := by
      show (q.stages.map Stage.reset)[place]? = some (.skip n)
      rw [List.getElem?_map, hplace]
      rfl
    have hmost : mostSkips (line.stages.take place) = mostSkips (q.stages.take place) := by
      show mostSkips ((q.stages.map Stage.reset).take place) = _
      rw [← List.map_take, mostSkips_map_reset]
    have hzero : line.control.skipped.toNat = 0 := rfl
    have hdrop := Line.arrivals_skip hskip sent
    rw [hmost, hzero, Nat.max_zero] at hdrop
    exact hdrop
  · intro before s after hsplit
    have hcount := counted_sights before s after hsplit
    have hmem : s.moment ∈ q.moments terminal w := by
      rw [← map_moment_sights]
      apply List.mem_map_of_mem
      show s ∈ sights
      rw [hsplit]
      exact List.mem_append_right before List.mem_cons_self
    rw [Nat.zero_add] at hcount
    exact ⟨hcount, skipped_le_of_mem_moments hmem⟩
  · have hlast : (Moment.lastControl {} (sights.map Sight.moment)).skipped.toNat =
        0 + sights.countP Sight.drops := Sight.Counted.last counted_sights
    rw [map_moment_sights, lastControl_moments, Nat.zero_add] at hlast
    exact hlast
  · intro source settings before after m n skips skip
    have htwins : ∀ {τ : Type}, Stage.Twins (σ := τ)
        ([.skip m, .skip n].flatMap Operator.stages) ([.skip (max m n)].flatMap Operator.stages) :=
      .skip m n
    have hrecorded := run_addAll_of_twins (before.mapIdx Operator.recorded)
      (after.mapIdx fun i op => op.recorded (before.length + 1 + i)) htwins source settings
      (terminal.recorded (before.length + 1 + after.length)) w.recorded
    exact ⟨run_addAll_of_twins before after htwins source settings terminal w,
      congrArg World.calls hrecorded.world⟩

/-- Behind one skip and a `uniq`, a second skip drops two elements of its own. -/
theorem skips_share_counter_two :
    let source : List Value := [.null, .bool true, .undefined, .bool true, .bool false]
    let q := (ofSource source {} : Query Unit).addAll [.skip 1, .uniq, .skip 3]
    let terminal : Terminal Unit (List Value) := Question.collect.start
    let line := (q.prepare terminal).line terminal ⟨0, ()⟩
    let sights := q.sights terminal ⟨0, ()⟩
    let second : Sight := ⟨⟨.step, { skipped := 1 }⟩, true⟩
    q.stages[2]? = some (.skip 3) ∧
      line.arrivals 3 (line.sent source) = (line.arrivals 2 (line.sent source)).drop 2 ∧
      sights = sights.take 2 ++ second :: sights.drop 3 ∧
      second.moment.control.skipped.toNat = (sights.take 2 ++ [second]).countP Sight.drops ∧
      (q.run terminal ⟨0, ()⟩).query.control.skipped.toNat = sights.countP Sight.drops := by
  intro source q terminal line sights second
  obtain ⟨hdrop, -, hcount, hall, -⟩ := skips_share_counter q terminal ⟨0, ()⟩
  have hsights : sights = sights.take 2 ++ second :: sights.drop 3 := rfl
  exact ⟨rfl, hdrop 2 3 rfl, hsights, (hcount _ second _ hsights).1, hall⟩

end Query

end FusedQuery
