/-
  FusedQuery/Proofs/Line/Calls.lean
  =================================
  **What a terminal that folds calls, and where a fold that fails ends its run.**

  A fold whose steps look something up about their element first may look up all of it first
  (`foldArrivals_eq_mapM`).  A step may also call something, and what it calls may depend on how
  far the fold has come (`foldCalls`).  The calls of a terminal that folds are those of its fold
  over what is delivered to it, if the stages do not call under its place (`callsAt_of_folds`).

  A step that fails is the last of the fold.  The world is left as that step leaves it
  (`drainUntilStop_of_fold_error`), and the element that it came from is the last that is sent
  (`sent_of_failsAt`).
-/
import FusedQuery.Proofs.Line.Prefix
import FusedQuery.Proofs.Recording.Places

namespace FusedQuery

variable {σ ρ β γ : Type}

/-! ### Folds over arrivals -/

/-- If a step finds something out about its arrival, or fails, and then works on what it found,
    all of it may as well be found out first. -/
theorem foldArrivals_eq_mapM {step : β → Value → Act σ β} {find : Arrival σ → Except Fault γ}
    {combine : β → γ → β}
    (h : ∀ b arrival, ((step b arrival.item).run arrival.world).result =
      (find arrival).map (combine b)) (b : β) (arrivals : List (Arrival σ)) :
    foldArrivals step b arrivals =
      (arrivals.mapM find).map fun found => found.foldl combine b := by
  induction arrivals generalizing b with
  | nil => rfl
  | cons arrival rest ih =>
    unfold foldArrivals at ih ⊢
    rw [List.foldlM_cons, h, List.mapM_cons]
    rcases find arrival with fault | found
    · rfl
    · refine (ih (combine b found)).trans ?_
      rcases rest.mapM find with fault | founds <;> rfl

/-- What is found out belongs to the arrivals, in their order. -/
theorem map_of_mapM {find : Arrival σ → Except Fault γ} {item : γ → Value}
    (h : ∀ arrival found, find arrival = .ok found → item found = arrival.item)
    {arrivals : List (Arrival σ)} {founds : List γ} (hfind : arrivals.mapM find = .ok founds) :
    founds.map item = arrivals.map Arrival.item := by
  induction arrivals generalizing founds with
  | nil =>
    cases hfind
    rfl
  | cons arrival rest ih =>
    rw [List.mapM_cons] at hfind
    cases hfirst : find arrival with
    | error fault =>
      rw [hfirst] at hfind
      cases hfind
    | ok found =>
      cases hrest : rest.mapM find with
      | error fault =>
        rw [hfirst, hrest] at hfind
        cases hfind
      | ok later =>
        rw [hfirst, hrest] at hfind
        cases hfind
        rw [List.map_cons, List.map_cons, ih hrest, h arrival found hfirst]

/-- If something is found out about all arrivals but the last, and not about all, it is the last
    that fails. -/
theorem last_of_mapM {find : Arrival σ → Except Fault γ} {arrivals : List (Arrival σ)}
    {fault : Fault} {founds : List γ} (h : arrivals.mapM find = .error fault)
    (hfront : arrivals.dropLast.mapM find = .ok founds) :
    ∃ last, arrivals = arrivals.dropLast ++ [last] ∧ find last = .error fault := by
  rcases List.eq_nil_or_concat arrivals with rfl | ⟨front, last, rfl⟩
  · cases h
  · rw [List.concat_eq_append, List.dropLast_concat] at *
    refine ⟨last, rfl, ?_⟩
    rw [List.mapM_append, hfront] at h
    cases hlast : find last with
    | error cause =>
      simp only [List.mapM_cons, hlast] at h
      cases h
      rfl
    | ok found =>
      simp only [List.mapM_cons, hlast] at h
      cases h

theorem foldArrivals_dropLast {step : β → Value → Act σ β} {b last : β}
    {arrivals : List (Arrival σ)} (h : foldArrivals step b arrivals = .ok last) :
    ∃ reached, foldArrivals step b arrivals.dropLast = .ok reached := by
  rcases List.eq_nil_or_concat arrivals with rfl | ⟨front, arrival, rfl⟩
  · exact ⟨last, h⟩
  · rw [List.concat_eq_append, List.dropLast_concat] at *
    rw [foldArrivals_append] at h
    cases hfront : foldArrivals step b front with
    | ok reached => exact ⟨reached, rfl⟩
    | error fault =>
      rw [hfront] at h
      cases h

/-- If the steps before the last arrival do not fail, and not all can be found out, it is at the
    last that nothing can. -/
theorem split_of_mapM_error {step : β → Value → Act σ β} {find : Arrival σ → Except Fault γ}
    {combine : β → γ → β}
    (h : ∀ b arrival, ((step b arrival.item).run arrival.world).result =
      (find arrival).map (combine b)) {b : β} {arrivals : List (Arrival σ)} {fault : Fault}
    (hbefore : ∃ reached, foldArrivals step b arrivals.dropLast = .ok reached)
    (hfault : arrivals.mapM find = .error fault) :
    ∃ front last founds, arrivals = front ++ [last] ∧ front.mapM find = .ok founds ∧
      find last = .error fault := by
  obtain ⟨reached, hreached⟩ := hbefore
  rw [foldArrivals_eq_mapM h] at hreached
  cases hfounds : arrivals.dropLast.mapM find with
  | error cause =>
    rw [hfounds] at hreached
    cases hreached
  | ok founds =>
    obtain ⟨last, harrivals, hlast⟩ := last_of_mapM hfault hfounds
    exact ⟨_, last, founds, harrivals, hfounds, hlast⟩

/-! ### Calls -/

/-- The calls of a fold, if a step calls what `calls` says: none after the first that fails. -/
def foldCalls (step : β → Value → Act σ β) (calls : β → Value → List Call) (b : β) :
    List (Arrival σ) → List Call
  | [] => []
  | arrival :: rest =>
    calls b arrival.item ++
      match ((step b arrival.item).run arrival.world).result with
      | .ok next => foldCalls step calls next rest
      | .error _ => []

theorem foldCalls_singleton (step : β → Value → Act σ β) (calls : β → Value → List Call) (b : β)
    (arrival : Arrival σ) : foldCalls step calls b [arrival] = calls b arrival.item := by
  rw [foldCalls]
  cases ((step b arrival.item).run arrival.world).result <;> exact List.append_nil _

/-- Steps that call once each, for arrivals of which none but the last may fail: there are as
    many calls as arrivals, and each tells of how far the fold has come. -/
theorem getElem?_foldCalls {step : β → Value → Act σ β} (call : β → Value → Call) {b : β}
    {arrivals : List (Arrival σ)}
    (h : ∃ last, foldArrivals step b arrivals.dropLast = .ok last) :
    (foldCalls step (fun b item => [call b item]) b arrivals).length = arrivals.length ∧
      ∀ i arrival, arrivals[i]? = some arrival →
        ∃ reached, foldArrivals step b (arrivals.take i) = .ok reached ∧
          (foldCalls step (fun b item => [call b item]) b arrivals)[i]? =
            some (call reached arrival.item) := by
  induction arrivals generalizing b with
  | nil => exact ⟨rfl, nofun⟩
  | cons first rest ih =>
    cases rest with
    | nil =>
      rw [foldCalls_singleton]
      refine ⟨rfl, ?_⟩
      intro i arrival harrival
      cases i with
      | zero =>
        obtain rfl := Option.some.inj harrival
        exact ⟨b, rfl, rfl⟩
      | succ i => cases harrival
    | cons second later =>
      rw [List.dropLast_cons_cons] at h
      obtain ⟨last, hlast⟩ := h
      unfold foldArrivals at hlast
      rw [List.foldlM_cons] at hlast
      cases hfirst : ((step b first.item).run first.world).result with
      | error fault =>
        rw [hfirst] at hlast
        cases hlast
      | ok next =>
        rw [hfirst] at hlast
        obtain ⟨hlength, hcalls⟩ := ih ⟨last, hlast⟩
        have hcons : foldCalls step (fun b item => [call b item]) b (first :: second :: later) =
            call b first.item ::
              foldCalls step (fun b item => [call b item]) next (second :: later) := by
          rw [foldCalls, hfirst]
          rfl
        rw [hcons]
        refine ⟨congrArg Nat.succ hlength, ?_⟩
        intro i arrival harrival
        cases i with
        | zero =>
          obtain rfl := Option.some.inj harrival
          exact ⟨b, rfl, rfl⟩
        | succ i =>
          obtain ⟨reached, hreached, hcall⟩ := hcalls i arrival harrival
          refine ⟨reached, ?_, hcall⟩
          unfold foldArrivals at hreached ⊢
          rw [List.take_succ_cons, List.foldlM_cons, hfirst]
          exact hreached

/-- If what is called does not depend on how far the fold has come, there is one call for each
    arrival. -/
theorem foldCalls_eq_map {step : β → Value → Act σ β} (call : Value → Call) {b : β}
    {arrivals : List (Arrival σ)}
    (h : ∃ last, foldArrivals step b arrivals.dropLast = .ok last) :
    foldCalls step (fun _ item => [call item]) b arrivals =
      arrivals.map fun arrival => call arrival.item := by
  obtain ⟨hlength, hcalls⟩ := getElem?_foldCalls (fun _ item => call item) h
  apply List.ext_getElem?
  intro i
  rw [List.getElem?_map]
  cases harrival : arrivals[i]? with
  | none => exact List.getElem?_eq_none (hlength ▸ List.getElem?_eq_none_iff.mp harrival)
  | some arrival =>
    obtain ⟨reached, -, hcall⟩ := hcalls i arrival harrival
    exact hcall

/-- A fold that records makes the calls of the one that does not. -/
theorem foldCalls_mirrors {recStep : β → Value → Act (Recorded σ) β} {step : β → Value → Act σ β}
    (h : ∀ b item, (recStep b item).Mirrors (step b item)) (calls : β → Value → List Call) (b : β)
    (arrivals : List (Arrival (Recorded σ))) :
    foldCalls recStep calls b arrivals =
      foldCalls step calls b (arrivals.map fun arrival => ⟨arrival.item, arrival.world.plain⟩) := by
  induction arrivals generalizing b with
  | nil => rfl
  | cons arrival rest ih =>
    simp only [List.map_cons, foldCalls, (h b arrival.item).result arrival.world, ih]

/-- How a fold fails: a last step does, after all others, and in this world. -/
structure FoldFails (step : β → Value → Act σ β) (b : β) (arrivals : List (Arrival σ))
    (fault : Fault) (w : World σ) (front : List (Arrival σ)) (last : Arrival σ) (reached : β) :
    Prop where
  arrivals : arrivals = front ++ [last]
  front : foldArrivals step b front = .ok reached
  result : ((step reached last.item).run last.world).result = .error fault
  world : ((step reached last.item).run last.world).world = w

namespace Line

/-! ### The calls of a terminal -/

/-- **The calls of a terminal that folds are those of its fold,** if the stages do not call under
    its place.  By induction on the source. -/
theorem callsAt_of_folds {place : Nat} {terminal : β → Terminal (Recorded σ) ρ}
    {step : β → Value → Act (Recorded σ) β} (hfolds : Terminal.Folds terminal step)
    {calls : β → Value → List Call}
    (hcalls : ∀ b item w, ((step b item).run w).world.callsAt place =
      w.callsAt place ++ calls b item)
    {line : Line (Recorded σ) ρ} {b : β} (hterminal : line.terminal = terminal b)
    (hstages : ∀ stage ∈ line.stages, stage.Sees Eq (World.SameCalls place)) (visited : Nat)
    (source : List Value) :
    (line.drainUntilStop visited source).line.world.callsAt place =
      line.world.callsAt place ++ foldCalls step calls b (line.delivered source) := by
  induction source generalizing line b visited with
  | nil => exact (List.append_nil _).symm
  | cons item rest ih =>
    cases hstop : line.control.stop with
    | true =>
      rw [drainUntilStop_of_stop line.stages hstop, delivered_of_stop hstop]
      exact (List.append_nil _).symm
    | false =>
      have hsame : World.SameCalls place line.world _ :=
        transit_keeps hstages line.control item rfl
      have hafter := acts_transit hstages line.control item line.world
      have hone := dispatch_folds hfolds hterminal item
      generalize ht : transit line.control item line.world line.stages = t at hsame hafter hone
      cases hone with
      | upstream hflow hdispatch =>
        rw [drainUntilStop_of_error hstop hdispatch, delivered_of_error hstop hdispatch, ht,
          Transit.arrival?_of_error hflow]
        exact hsame.symm.trans (List.append_nil _).symm
      | dropped hflow hdispatch =>
        rw [drainUntilStop_of_ok hstop hdispatch, delivered_of_ok hstop hdispatch, ht,
          Transit.arrival?_of_drop hflow, hsame]
        exact ih rfl hafter (visited + 1)
      | @taken out next hflow hresult hdispatch =>
        rw [drainUntilStop_of_ok hstop hdispatch, delivered_of_ok hstop hdispatch, ht,
          Transit.arrival?_of_forward hflow, hsame]
        have hrest := @ih ⟨t.stages, t.control, terminal next, ((step b out).run t.world).world⟩
          next rfl hafter (visited + 1)
        rw [hcalls, List.append_assoc] at hrest
        simp only [Option.toList_some, List.singleton_append, foldCalls, hresult]
        exact hrest
      | failed hflow hresult hdispatch =>
        rw [drainUntilStop_of_error hstop hdispatch, delivered_of_error hstop hdispatch, ht,
          Transit.arrival?_of_forward hflow, hsame, Option.toList_some, foldCalls_singleton]
        exact hcalls _ _ _

/-- A line that records is delivered the same elements, in the same worlds but for the
    record. -/
theorem arrivals_delivered_mirrors {recording : Line (Recorded σ) ρ} {line : Line σ ρ}
    (h : recording.Mirrors line) (source : List Value) :
    ((recording.delivered source).map fun arrival =>
        (⟨arrival.item, arrival.world.plain⟩ : Arrival σ)) = line.delivered source := by
  rw [delivered, delivered, sent_mirrors h, h.stages.length_eq]
  exact arrivals_mirrors h line.stages.length (line.sent source)

/-! ### A step that fails -/

/-- **A traversal is left in the world of the step that fails.**  By induction on the source. -/
theorem drainUntilStop_of_fold_error {terminal : β → Terminal σ ρ} {step : β → Value → Act σ β}
    (hfolds : Terminal.Folds terminal step) {line : Line σ ρ} {b : β}
    (hterminal : line.terminal = terminal b) (visited : Nat) {source : List Value} {fault : Fault}
    (h : foldArrivals step b (line.delivered source) = .error fault) :
    ∃ front last reached, FoldFails step b (line.delivered source) fault
      (line.drainUntilStop visited source).line.world front last reached := by
  induction source generalizing line b visited with
  | nil => cases h
  | cons item rest ih =>
    cases hstop : line.control.stop with
    | true =>
      rw [delivered_of_stop hstop] at h
      cases h
    | false =>
      have hone := dispatch_folds hfolds hterminal item
      generalize ht : transit line.control item line.world line.stages = t at hone
      cases hone with
      | upstream hflow hdispatch =>
        rw [delivered_of_error hstop hdispatch, ht, Transit.arrival?_of_error hflow] at h
        cases h
      | dropped hflow hdispatch =>
        rw [delivered_of_ok hstop hdispatch, ht, Transit.arrival?_of_drop hflow] at h ⊢
        rw [drainUntilStop_of_ok hstop hdispatch]
        exact ih rfl (visited + 1) h
      | @taken out next hflow hresult hdispatch =>
        have hfold := foldArrivals_singleton step b ⟨out, t.world⟩
        rw [hresult] at hfold
        rw [delivered_of_ok hstop hdispatch, ht, Transit.arrival?_of_forward hflow] at h ⊢
        rw [drainUntilStop_of_ok hstop hdispatch]
        rw [Option.toList_some, foldArrivals_append, hfold] at h
        obtain ⟨front, last, reached, hfails⟩ := ih rfl (visited + 1) h
        refine ⟨⟨out, t.world⟩ :: front, last, reached, ?_, ?_, hfails.result, hfails.world⟩
        · exact congrArg (⟨out, t.world⟩ :: ·) hfails.arrivals
        · have hfront := foldArrivals_append step b [⟨out, t.world⟩] front
          rw [hfold] at hfront
          exact hfront.trans hfails.front
      | @failed out fault' broken hflow hresult hdispatch =>
        rw [delivered_of_error hstop hdispatch, ht, Transit.arrival?_of_forward hflow] at h ⊢
        rw [drainUntilStop_of_error hstop hdispatch]
        rw [Option.toList_some, foldArrivals_singleton, hresult] at h
        exact ⟨[], ⟨out, t.world⟩, b, rfl, rfl, hresult.trans h, rfl⟩

/-- By induction on the number of elements that are sent before one fails. -/
theorem sent_of_drained {line : Line σ ρ} {source : List Value} {k visited : Nat} {item : Value}
    {fault : Fault} (hitem : source[k]? = some item)
    (hvisited : (line.drainUntilStop visited (source.take k)).visited = .ok (visited + k))
    (hstop : (line.drainUntilStop visited (source.take k)).line.control.stop = false)
    (hfails : ((line.drainUntilStop visited (source.take k)).line.dispatch item).status =
      .error fault) : line.sent source = source.take (k + 1) := by
  induction k generalizing line source visited with
  | zero =>
    cases source with
    | nil => cases hitem
    | cons first rest =>
      obtain rfl := Option.some.inj hitem
      rw [List.take_zero] at hstop hfails
      have hstill : line.control.stop = false := hstop
      have hfirst : (line.dispatch first).status = .error fault := hfails
      simp only [sent, hstill, hfirst, Bool.false_eq_true, ↓reduceIte]
      rfl
  | succ k ih =>
    cases source with
    | nil => cases hitem
    | cons first rest =>
      rw [List.take_succ_cons, drainUntilStop] at hvisited hstop hfails
      cases hstill : line.control.stop with
      | true =>
        rw [if_pos hstill] at hvisited
        have hcount := Except.ok.inj hvisited
        omega
      | false =>
        simp only [hstill, Bool.false_eq_true, ↓reduceIte] at hvisited hstop hfails
        cases hfirst : (line.dispatch first).status with
        | error earlier =>
          rw [hfirst] at hvisited
          cases hvisited
        | ok _ =>
          rw [hfirst] at hvisited hstop hfails
          have hcount : visited + (k + 1) = visited + 1 + k := by omega
          rw [hcount] at hvisited
          have hrest := ih hitem hvisited hstop hfails
          simp only [sent, hstill, hfirst, Bool.false_eq_true, ↓reduceIte, hrest]
          rfl

/-- The element that fails is the last that is sent. -/
theorem sent_of_failsAt {line : Line σ ρ} {source : List Value} {k : Nat} {fault : Fault}
    (h : line.FailsAt source k fault) : line.sent source = source.take (k + 1) := by
  obtain ⟨hsent, hrunning, item, hitem, hfails⟩ := h
  exact sent_of_drained hitem (hsent.trans (by rw [Nat.zero_add])) hrunning hfails

end Line

end FusedQuery
