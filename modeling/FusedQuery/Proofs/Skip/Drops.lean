/-
  FusedQuery/Proofs/Skip/Drops.lean
  =================================
  **What each of several skips drops.**

  All skips of a line count what they drop in one number, and each looks whether that number has
  come to its own count.  So an element comes through a row of stages only when the number has
  come to the largest count among them (`mostSkips`), and on the way it leaves the number alone
  (`transit_skips`).

  A skip therefore drops what its count is above the largest before it, and hands on all that
  comes after that (`arrivals_skip`).  Stages between the skips, and a stop or a fault that ends
  the run, change what arrives at a skip, but not how many of its arrivals it drops.
-/
import FusedQuery.Proofs.Line.Arrivals

namespace FusedQuery

variable {σ ρ : Type}

/-! ### The largest count -/

/-- The largest count of a skip among the stages, or 0 if none of them skips. -/
def mostSkips (stages : List (Stage σ)) : Nat :=
  stages.foldr (fun stage most => max stage.skipCount.toNat most) 0

theorem mostSkips_cons (stage : Stage σ) (rest : List (Stage σ)) :
    mostSkips (stage :: rest) = max stage.skipCount.toNat (mostSkips rest) := rfl

/-- Counts are fixed when a query is built. -/
theorem mostSkips_map_reset (stages : List (Stage σ)) :
    mostSkips (stages.map Stage.reset) = mostSkips stages := by
  induction stages with
  | nil => rfl
  | cons stage rest ih => rw [List.map_cons, mostSkips_cons, mostSkips_cons, ih,
      Stage.skipCount_reset]

theorem mostSkips_of_map_reset {stages other : List (Stage σ)}
    (h : stages.map Stage.reset = other.map Stage.reset) : mostSkips stages = mostSkips other := by
  rw [← mostSkips_map_reset stages, h, mostSkips_map_reset]

/-! ### One element -/

/-- A stage that waits for skips drops its element and counts it; any other leaves the number of
    skips alone. -/
theorem Stage.skipped_step_cases (stage : Stage σ) (control : Control) (item : Value)
    (w : World σ) :
    (control.skipped < stage.skipCount ∧ (stage.step control item w).flow = .ok .drop ∧
        (stage.step control item w).control.skipped.toNat = control.skipped.toNat + 1) ∨
      (stage.skipCount ≤ control.skipped ∧
        (stage.step control item w).control.skipped = control.skipped) := by
  rw [stage.step_onto control]
  by_cases hlt : control.skipped < stage.skipCount
  · have hstep := step_of_lt hlt item w
    have hcount := toNat_succ_of_lt hlt
    rw [hstep]
    exact Or.inl ⟨hlt, rfl, hcount⟩
  · have hle := UInt64.not_lt.mp hlt
    exact Or.inr ⟨hle, skipped_step hle item w⟩

namespace Line

/-- How an element on its way through some stages deals with the number of skips. -/
structure Transit.Skips (stages : List (Stage σ)) (control : Control) (t : Transit σ) :
    Prop where
  total : max (mostSkips stages) t.control.skipped.toNat =
    max (mostSkips stages) control.skipped.toNat
  through {item : Value} : t.flow = .ok (.forward item) →
    mostSkips stages ≤ control.skipped.toNat ∧ t.control.skipped = control.skipped

/-- By induction on the stages.  The first that waits for skips ends the element's way. -/
theorem transit_skips (control : Control) (item : Value) (w : World σ)
    (stages : List (Stage σ)) :
    (transit control item w stages).Skips stages control := by
  induction stages generalizing control item w with
  | nil => exact ⟨rfl, fun _ => ⟨Nat.zero_le _, rfl⟩⟩
  | cons stage rest ih =>
    rcases stage.skipped_step_cases control item w with ⟨hlt, hflow, hcount⟩ | ⟨hle, hsame⟩
    · have hnat := UInt64.lt_iff_toNat_lt.mp hlt
      constructor
      · simp only [transit, hflow, mostSkips_cons, hcount]
        omega
      · intro next hnext
        simp only [transit, hflow] at hnext
        cases hnext
    · have hnat := UInt64.le_iff_toNat_le.mp hle
      cases hflow : (stage.step control item w).flow with
      | error fault =>
        simp only [transit, hflow]
        refine ⟨by rw [hsame], ?_⟩
        intro out hout
        cases hout
      | ok flow =>
        cases flow with
        | drop =>
          simp only [transit, hflow]
          refine ⟨by rw [hsame], ?_⟩
          intro out hout
          cases hout
        | forward next =>
          have hmost := mostSkips_cons stage rest
          have honward := ih (stage.step control item w).control next
            (stage.step control item w).world
          simp only [transit, hflow]
          generalize transit _ next _ rest = t at honward
          obtain ⟨htotal, hthrough⟩ := honward
          rw [hsame] at htotal hthrough
          constructor
          · show max (mostSkips (stage :: rest)) t.control.skipped.toNat = _
            omega
          · intro out hout
            obtain ⟨hrest, hkept⟩ := hthrough hout
            exact ⟨by omega, hkept⟩

/-- A terminal leaves the number of skips alone. -/
theorem skipped_dispatch (line : Line σ ρ) (item : Value) :
    (line.dispatch item).line.control.skipped =
      (transit line.control item line.world line.stages).control.skipped := by
  rw [dispatch_eq_deliver]
  generalize transit line.control item line.world line.stages = t
  unfold Transit.deliver
  rcases t.flow with fault | flow
  · rfl
  · cases flow with
    | drop => rfl
    | forward out =>
      simp only [line.terminal.accept_eq t.control, Terminal.Acceptance.onto]
      split <;> rfl

theorem mostSkips_take_dispatch (line : Line σ ρ) (item : Value) (place : Nat) :
    mostSkips ((line.dispatch item).line.stages.take place) =
      mostSkips (line.stages.take place) := by
  apply mostSkips_of_map_reset
  rw [List.map_take, List.map_take, (dispatch_kept line item).stages]

/-! ### One skip -/

section Skip

variable {line : Line σ ρ} {place : Nat} {n : UInt64}

theorem stages_of_skip (h : line.stages[place]? = some (.skip n)) :
    ∃ behind, line.stages = line.stages.take place ++ .skip n :: behind := by
  obtain ⟨hlt, hget⟩ := List.getElem?_eq_some_iff.mp h
  refine ⟨line.stages.drop (place + 1), ?_⟩
  rw [← hget, ← List.drop_eq_getElem_cons hlt, List.take_append_drop]

/-- A skip learns nothing of its own. -/
theorem skip_dispatch (h : line.stages[place]? = some (.skip n)) (item : Value) :
    (line.dispatch item).line.stages[place]? = some (.skip n) := by
  have hmeet : ∀ arrival : Arrival σ, (Stage.skip n : Stage σ).meet arrival = .skip n := by
    intro arrival
    simp only [Stage.meet, Stage.step]
    split <;> rfl
  rw [stages_dispatch, getElem?_transit h]
  cases (transit line.control item line.world (line.stages.take place)).arrival? with
  | none => rfl
  | some arrival => exact congrArg some (hmeet arrival)

/-- Nothing arrives at the skip: the stages before it may have skipped, but no further than to
    the largest of their counts. -/
theorem skipped_of_no_arrival (h : line.stages[place]? = some (.skip n)) {item : Value}
    (hnone : line.arrival? item place = none) :
    line.arrival? item (place + 1) = none ∧
      max (mostSkips (line.stages.take place)) (line.dispatch item).line.control.skipped.toNat =
        max (mostSkips (line.stages.take place)) line.control.skipped.toNat := by
  have htake : line.stages.take (place + 1) = line.stages.take place ++ [.skip n] := by
    rw [List.take_add_one, h, Option.toList_some]
  obtain ⟨behind, hstages⟩ := stages_of_skip h
  have hskips := transit_skips line.control item line.world (line.stages.take place)
  rw [skipped_dispatch, arrival?, htake]
  rw [arrival?] at hnone
  generalize hfront : line.stages.take place = front at *
  rw [hstages, transit_append, transit_append]
  generalize transit line.control item line.world front = t at *
  have hends : ∀ rest, (t.onward rest).arrival? = none ∧ (t.onward rest).control = t.control := by
    intro rest
    unfold Transit.onward
    rcases hflow : t.flow with fault | flow
    · exact ⟨rfl, rfl⟩
    · cases flow with
      | drop => exact ⟨rfl, rfl⟩
      | forward out =>
        rw [Transit.arrival?, hflow] at hnone
        cases hnone
  refine ⟨(hends _).1, ?_⟩
  rw [(hends _).2]
  exact hskips.total

/-- An element arrives at the skip: all skips before it are done, and it goes by what is still
    missing to its own count. -/
theorem skipped_of_arrival (h : line.stages[place]? = some (.skip n)) {item : Value}
    {arrival : Arrival σ} (hsome : line.arrival? item place = some arrival) :
    mostSkips (line.stages.take place) ≤ line.control.skipped.toNat ∧
      (line.control.skipped < n → line.arrival? item (place + 1) = none ∧
        (line.dispatch item).line.control.skipped.toNat = line.control.skipped.toNat + 1) ∧
      (n ≤ line.control.skipped → line.arrival? item (place + 1) = some arrival ∧
        n ≤ (line.dispatch item).line.control.skipped) := by
  have htake : line.stages.take (place + 1) = line.stages.take place ++ [.skip n] := by
    rw [List.take_add_one, h, Option.toList_some]
  obtain ⟨behind, hstages⟩ := stages_of_skip h
  have hskips := transit_skips line.control item line.world (line.stages.take place)
  have hkept := (dispatch_kept line item).control.skipped
  rw [skipped_dispatch] at hkept ⊢
  rw [arrival?, htake]
  rw [arrival?] at hsome
  generalize hfront : line.stages.take place = front at *
  rw [hstages] at hkept ⊢
  rw [transit_append] at hkept ⊢
  rw [transit_append]
  generalize transit line.control item line.world front = t at *
  cases hflow : t.flow with
  | error fault =>
    rw [Transit.arrival?, hflow] at hsome
    cases hsome
  | ok flow =>
    cases flow with
    | drop =>
      rw [Transit.arrival?, hflow] at hsome
      cases hsome
    | forward out =>
      obtain ⟨hdone, hsame⟩ := hskips.through hflow
      rw [Transit.arrival?, hflow] at hsome
      obtain rfl := Option.some.inj hsome
      refine ⟨hdone, ?_, ?_⟩
      · intro hlt
        have hcount := toNat_succ_of_lt hlt
        rw [← hsame] at hlt hcount
        simp only [Transit.onward, hflow, transit, Stage.step, if_pos hlt]
        rw [← hsame]
        exact ⟨rfl, hcount⟩
      · intro hle
        have hnot : ¬ t.control.skipped < n := by
          rw [hsame]
          exact UInt64.not_lt.mpr hle
        refine ⟨?_, UInt64.le_trans hle (UInt64.le_iff_toNat_le.mpr hkept)⟩
        simp only [Transit.onward, hflow, transit, Stage.step, if_neg hnot]
        rfl

/-- **A skip drops, of its arrivals, as many as its count is above the largest count before
    it,** less those that are done.  By induction on the elements sent: what the skips before it
    do to the number cannot be told from what they have left to do. -/
theorem arrivals_skip (h : line.stages[place]? = some (.skip n)) (items : List Value) :
    line.arrivals (place + 1) items =
      (line.arrivals place items).drop
        (n.toNat - max (mostSkips (line.stages.take place)) line.control.skipped.toNat) := by
  induction items generalizing line with
  | nil => exact List.drop_nil.symm
  | cons item rest ih =>
    have hrest := ih (skip_dispatch h item)
    rw [mostSkips_take_dispatch] at hrest
    rw [arrivals, arrivals, hrest]
    cases harrival : line.arrival? item place with
    | none =>
      obtain ⟨hnone, htotal⟩ := skipped_of_no_arrival h harrival
      rw [hnone, htotal]
      rfl
    | some arrival =>
      obtain ⟨hdone, hmissing, henough⟩ := skipped_of_arrival h harrival
      rcases UInt64.lt_or_le line.control.skipped n with hlt | hle
      · obtain ⟨hnone, hcount⟩ := hmissing hlt
        have hnat := UInt64.lt_iff_toNat_lt.mp hlt
        have hone : n.toNat - max (mostSkips (line.stages.take place)) line.control.skipped.toNat =
            n.toNat - max (mostSkips (line.stages.take place))
              (line.dispatch item).line.control.skipped.toNat + 1 := by omega
        rw [hnone, hone]
        rfl
      · obtain ⟨hsome, hstill⟩ := henough hle
        have hnat := UInt64.le_iff_toNat_le.mp hle
        have hnat' := UInt64.le_iff_toNat_le.mp hstill
        have hzero : n.toNat -
            max (mostSkips (line.stages.take place)) line.control.skipped.toNat = 0 := by omega
        have hzero' : n.toNat - max (mostSkips (line.stages.take place))
            (line.dispatch item).line.control.skipped.toNat = 0 := by omega
        rw [hsome, hzero, hzero']
        rfl

end Skip

end Line

end FusedQuery
