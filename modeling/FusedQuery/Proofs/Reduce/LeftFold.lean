/-
  FusedQuery/Proofs/Reduce/LeftFold.lean
  ======================================
  **Reducing is folding from the left.**

  With a seed, the fold starts there and goes over everything that is delivered; without one, it
  starts at the first element and goes over the rest (`folding?`).  The terminal knows only
  whether it has an accumulator yet: its step takes the first element as it is, and calls the
  callback from then on (`Question.reduceStep`).  Going over all elements with that step is
  going over the rest with the callback (`foldArrivals_reduceStep`), with its calls
  (`foldCalls_reduceStep`) and its failure (`foldFails_of_reduceStep`).

  What a query answers, calls and puts down follows from that (`reduce_folds_left`).  A fold
  with nowhere to start has gone through the source before it turns out to have no answer; one
  whose callback fails has not.
-/
import FusedQuery.Proofs.History.Stats
import FusedQuery.Proofs.Query.Folding

namespace FusedQuery

variable {σ ι : Type}

/-- Where a fold starts, and what it goes over. -/
def folding? (item : ι → Value) (seed? : Option Value) (xs : List ι) : Option (Value × List ι) :=
  match seed?, xs with
  | some seed, xs => some (seed, xs)
  | none, first :: rest => some (item first, rest)
  | none, [] => none

theorem folding?_eq_none_iff {item : ι → Value} {seed? : Option Value} {xs : List ι} :
    folding? item seed? xs = none ↔ seed? = none ∧ xs = [] := by
  cases seed? with
  | some seed => exact iff_of_false nofun nofun
  | none =>
    cases xs with
    | nil => exact iff_of_true rfl ⟨rfl, rfl⟩
    | cons first rest => exact iff_of_false nofun nofun

/-- It starts at the seed, or at the first element. -/
theorem folding?_cases {item : ι → Value} {seed? : Option Value} {xs rest : List ι} {start : Value}
    (h : folding? item seed? xs = some (start, rest)) :
    (seed? = some start ∧ xs = rest) ∨
      ∃ first, seed? = none ∧ xs = first :: rest ∧ item first = start := by
  cases seed? with
  | some seed =>
    obtain ⟨rfl, rfl⟩ := Prod.mk.inj (Option.some.inj h)
    exact .inl ⟨rfl, rfl⟩
  | none =>
    cases xs with
    | nil => cases h
    | cons first later =>
      obtain ⟨rfl, rfl⟩ := Prod.mk.inj (Option.some.inj h)
      exact .inr ⟨first, rfl, rfl, rfl⟩

/-- An accumulator, if there is one yet, and one more element. -/
def Question.reduceStep (fold : Value → Value → Act σ Value) (acc? : Option Value)
    (item : Value) : Act σ (Option Value) :=
  match acc? with
  | none => return some item
  | some acc => do return some (← fold acc item)

/-- What a step calls. -/
def Question.reduceCalls (place : Nat) (acc? : Option Value) (item : Value) : List Call :=
  match acc? with
  | none => []
  | some acc => [⟨place, false, [acc, item]⟩]

/-! ### One step -/

theorem Terminal.folds_reduceStep (fold : Value → Value → Act σ Value) :
    Folds (fun acc? => .reduce fold acc?) (Question.reduceStep fold) := by
  refine ⟨fun _ => .reduce fold none, fun acc? item w => ?_⟩
  cases acc? with
  | none => rfl
  | some acc =>
    simp only [accept, Question.reduceStep, Act.run_bind]
    cases ((fold acc item).run w).result <;> rfl

namespace Question

variable {fold : Value → Value → Act σ Value}

theorem result_reduceStep (acc item : Value) (w : World σ) :
    ((reduceStep fold (some acc) item).run w).result =
      ((fold acc item).run w).result.map some := by
  rw [reduceStep, Act.run_bind]
  rcases ((fold acc item).run w).result with fault | next <;> rfl

theorem world_reduceStep (acc item : Value) (w : World σ) :
    ((reduceStep fold (some acc) item).run w).world = ((fold acc item).run w).world := by
  rw [reduceStep, Act.run_bind]
  rcases ((fold acc item).run w).result with fault | next <;> rfl

theorem reduceStep_mirrors (place : Nat) (fold : Value → Value → Act σ Value)
    (acc? : Option Value) (item : Value) :
    (reduceStep (recordedPairCallback place fold) acc? item).Mirrors
      (reduceStep fold acc? item) := by
  cases acc? with
  | none => exact Act.mirrors_ofExcept (.ok (some item))
  | some acc => exact (Act.mirrors_recorded _ (fold acc item)).map some

theorem callsAt_reduceStep (place : Nat) (fold : Value → Value → Act σ Value)
    (acc? : Option Value) (item : Value) (w : World (Recorded σ)) :
    ((reduceStep (recordedPairCallback place fold) acc? item).run w).world.callsAt place =
      w.callsAt place ++ reduceCalls place acc? item := by
  cases acc? with
  | none => exact (List.append_nil _).symm
  | some acc =>
    have hcall := World.callsAt_recorded place (fold acc item) ⟨place, false, [acc, item]⟩ w
    rw [if_pos rfl] at hcall
    rw [world_reduceStep]
    exact hcall

/-- What a fold from a known start means for a stream. -/
theorem meaning_reduce {seed? : Option Value} {s : Stream} {start : Value} {rest : List Value}
    (h : folding? id seed? s.items = some (start, rest)) :
    (reduce fold seed?).meaning s =
      (do s.completed (← rest.foldlM fold start) : Act σ Value) := by
  obtain ⟨items, fault?⟩ := s
  rcases folding?_cases h with ⟨rfl, rfl⟩ | ⟨first, rfl, hitems, rfl⟩
  · rfl
  · obtain rfl : items = first :: rest := hitems
    rfl

theorem meaning_reduce_nil {s : Stream} (h : s.items = []) :
    (reduce fold none).meaning s =
      .ofExcept (s.complete () >>= fun _ => .error .emptyReduce) := by
  obtain ⟨items, fault?⟩ := s
  obtain rfl : items = [] := h
  cases fault? <;> rfl

theorem completed_run (act : Act σ Value) (s : Stream) (w : World σ) :
    ((do s.completed (← act) : Act σ Value).run w).result =
        ((act.run w).result >>= fun last => s.complete last) ∧
      ((do s.completed (← act) : Act σ Value).run w).world = (act.run w).world := by
  rw [Act.run_bind]
  cases (act.run w).result <;> exact ⟨rfl, rfl⟩

end Question

/-! ### All elements -/

section Arrivals

variable {fold : Value → Value → Act σ Value} {seed? : Option Value}
  {arrived : List (Arrival σ)}

/-- Once there is an accumulator, every element is folded. -/
theorem foldArrivals_some (start : Value) (rest : List (Arrival σ)) :
    foldArrivals (Question.reduceStep fold) (some start) rest =
      (foldArrivals fold start rest).map some := by
  induction rest generalizing start with
  | nil => rfl
  | cons arrival rest ih =>
    unfold foldArrivals at ih ⊢
    rw [List.foldlM_cons, List.foldlM_cons, Question.result_reduceStep]
    rcases ((fold start arrival.item).run arrival.world).result with fault | next
    · rfl
    · exact ih next

/-- Then there is one at the end as well. -/
theorem foldArrivals_of_some {start : Value} {rest : List (Arrival σ)} {reached : Option Value}
    (h : foldArrivals (Question.reduceStep fold) (some start) rest = .ok reached) :
    ∃ acc, reached = some acc ∧ foldArrivals fold start rest = .ok acc := by
  rw [foldArrivals_some] at h
  cases hfold : foldArrivals fold start rest with
  | error fault =>
    rw [hfold] at h
    cases h
  | ok acc =>
    rw [hfold] at h
    exact ⟨acc, (Except.ok.inj h).symm, rfl⟩

theorem foldArrivals_reduceStep (fold : Value → Value → Act σ Value) {start : Value}
    {rest : List (Arrival σ)} (h : folding? Arrival.item seed? arrived = some (start, rest)) :
    foldArrivals (Question.reduceStep fold) seed? arrived =
      (foldArrivals fold start rest).map some := by
  rcases folding?_cases h with ⟨rfl, rfl⟩ | ⟨first, rfl, rfl, rfl⟩
  · exact foldArrivals_some start arrived
  · exact foldArrivals_some first.item rest

theorem foldCalls_some (place : Nat) (start : Value) (rest : List (Arrival σ)) :
    foldCalls (Question.reduceStep fold) (Question.reduceCalls place) (some start) rest =
      foldCalls fold (fun acc item => [⟨place, false, [acc, item]⟩]) start rest := by
  induction rest generalizing start with
  | nil => rfl
  | cons arrival rest ih =>
    rw [foldCalls, foldCalls, Question.result_reduceStep]
    rcases ((fold start arrival.item).run arrival.world).result with fault | next
    · rfl
    · exact congrArg (⟨place, false, [start, arrival.item]⟩ :: ·) (ih next)

theorem foldCalls_reduceStep (place : Nat) {start : Value} {rest : List (Arrival σ)}
    (h : folding? Arrival.item seed? arrived = some (start, rest)) :
    foldCalls (Question.reduceStep fold) (Question.reduceCalls place) seed? arrived =
      foldCalls fold (fun acc item => [⟨place, false, [acc, item]⟩]) start rest := by
  rcases folding?_cases h with ⟨rfl, rfl⟩ | ⟨first, rfl, rfl, rfl⟩
  · exact foldCalls_some place start arrived
  · exact foldCalls_some place first.item rest

/-- Steps that do not fail on all but the last arrival do not on all but the last of the
    rest. -/
theorem fold_dropLast_of_reduceStep {start : Value} {rest : List (Arrival σ)}
    (h : folding? Arrival.item seed? arrived = some (start, rest)) {reached : Option Value}
    (hfold : foldArrivals (Question.reduceStep fold) seed? arrived.dropLast = .ok reached) :
    ∃ acc, foldArrivals fold start rest.dropLast = .ok acc := by
  rcases folding?_cases h with ⟨rfl, rfl⟩ | ⟨first, rfl, rfl, rfl⟩
  · obtain ⟨acc, -, hacc⟩ := foldArrivals_of_some hfold
    exact ⟨acc, hacc⟩
  · cases rest with
    | nil => exact ⟨first.item, rfl⟩
    | cons second later =>
      rw [List.dropLast_cons_cons] at hfold
      obtain ⟨acc, -, hacc⟩ := foldArrivals_of_some hfold
      exact ⟨acc, hacc⟩

/-- The first element, taken as it is, does not fail. -/
theorem foldFails_of_reduceStep {start : Value} {rest : List (Arrival σ)}
    (h : folding? Arrival.item seed? arrived = some (start, rest)) {fault : Fault} {w : World σ}
    {front : List (Arrival σ)} {last : Arrival σ} {reached : Option Value}
    (hfails : FoldFails (Question.reduceStep fold) seed? arrived fault w front last reached) :
    ∃ front acc, FoldFails fold start rest fault w front last acc := by
  obtain ⟨harrived, hfront, hresult, hworld⟩ := hfails
  have hstep : ∀ {acc : Value}, reached = some acc →
      ((fold acc last.item).run last.world).result = .error fault ∧
        ((fold acc last.item).run last.world).world = w := by
    rintro acc rfl
    rw [Question.result_reduceStep] at hresult
    rw [Question.world_reduceStep] at hworld
    refine ⟨?_, hworld⟩
    cases hfold : ((fold acc last.item).run last.world).result with
    | error cause =>
      rw [hfold] at hresult
      exact congrArg Except.error (Except.error.inj hresult)
    | ok next =>
      rw [hfold] at hresult
      cases hresult
  rcases folding?_cases h with ⟨rfl, rfl⟩ | ⟨first, rfl, rfl, rfl⟩
  · obtain ⟨acc, hreached, hacc⟩ := foldArrivals_of_some hfront
    exact ⟨front, acc, harrived, hacc, (hstep hreached).1, (hstep hreached).2⟩
  · cases front with
    | nil =>
      obtain rfl := Except.ok.inj hfront
      cases hresult
    | cons other others =>
      obtain ⟨rfl, rfl⟩ := List.cons.inj harrived
      obtain ⟨acc, hreached, hacc⟩ := foldArrivals_of_some hfront
      exact ⟨others, acc, rfl, hacc, (hstep hreached).1, (hstep hreached).2⟩

end Arrivals

namespace Query

/-! ### Runs -/

/-- The callback is called by the steps that have an accumulator. -/
theorem callsAfter_reduce (source : List Value) (settings : Settings) (history : List (Event σ))
    (fold : Value → Value → Act σ Value) (seed? : Option Value) (w : World σ) :
    let q := (ofSource source settings).replay history
    let question := Question.reduce fold seed?
    let line := (q.prepare question.start).line question.start w
    ((callsAfter source settings (history.mapIdx Event.recorded)
        (question.start.recorded history.length) w).filter
          fun call => call.place = history.length) =
      foldCalls (Question.reduceStep fold) (Question.reduceCalls history.length) seed?
        (line.delivered q.source) :=
  callsAfter_folds source settings history _ w (Terminal.folds_reduceStep _) rfl
    (Question.reduceStep_mirrors history.length fold)
    (Question.callsAt_reduceStep history.length fold)

/-- A run none of whose steps fails puts down its statistics, unless a stage fails. -/
theorem reduce_of_ok {q : Query σ} {fold : Value → Value → Act σ Value} {seed? : Option Value}
    {w : World σ} {acc? : Option Value} :
    let question := Question.reduce fold seed?
    let line := (q.prepare question.start).line question.start w
    let run := q.ask question w
    foldArrivals (Question.reduceStep fold) seed? (line.delivered q.source) = .ok acc? →
      (∀ n, q.visits question.start w = .ok n →
        run.result = (Terminal.reduce fold acc?).finish ∧
          run.query.stats.Describes q question.start ∧ run.query.stats.visited = n) ∧
      ∀ fault, q.visits question.start w = .error fault →
        run.result = .error fault ∧ run.query.stats = q.stats ∧
          line.FailsUpstream q.source fault := by
  intro question line run hfold
  obtain ⟨hresult, hupstream⟩ := result_of_fold (Terminal.folds_reduceStep fold) rfl hfold
  constructor
  · intro n hn
    exact ⟨hresult n hn, describes_run hn⟩
  · intro fault hfault
    obtain ⟨herror, hfails⟩ := hupstream fault hfault
    exact ⟨herror, (looksLike_of_failed hfault).stats, hfails⟩

/-- **Reducing is folding from the left,** from a seed or from the first element.

    What the statistics were before is what the latest run that got through has put down. -/
theorem reduce_folds_left (source : List Value) (settings : Settings) (history : List (Event σ))
    (fold : Value → Value → Act σ Value) (seed? : Option Value) (w : World σ) :
    let q := (ofSource source settings).replay history
    let question := Question.reduce fold seed?
    let line := (q.prepare question.start).line question.start w
    let arrived := line.delivered q.source
    let run := q.ask question w
    let before := ((ofSource source settings).reports history).getLast?.getD {}
    let calls := (callsAfter source settings (history.mapIdx Event.recorded)
      (question.start.recorded history.length) w).filter fun call => call.place = history.length
    let s := q.stream w
    (∀ start rest, folding? Arrival.item seed? arrived = some (start, rest) →
      (∀ last, foldArrivals fold start rest = .ok last →
        (∀ n, q.visits question.start w = .ok n → run.result = .ok last ∧
          run.query.stats.Describes q question.start ∧ run.query.stats.visited = n) ∧
        ∀ fault, q.visits question.start w = .error fault → run.result = .error fault ∧
          run.query.stats = before ∧ line.FailsUpstream q.source fault) ∧
      (∀ fault, foldArrivals fold start rest = .error fault →
        run.result = .error fault ∧ run.query.stats = before ∧
        (∃ k, q.FailsAt question w k fault ∧ line.sent q.source = q.source.take (k + 1)) ∧
        ∃ front last acc, FoldFails fold start rest fault run.world front last acc) ∧
      calls.length = rest.length ∧
      ∀ i arrival, rest[i]? = some arrival →
        ∃ acc, foldArrivals fold start (rest.take i) = .ok acc ∧
          calls[i]? = some ⟨history.length, false, [acc, arrival.item]⟩) ∧
    (folding? Arrival.item seed? arrived = none ↔ seed? = none ∧ arrived = []) ∧
    (seed? = none → arrived = [] → calls = [] ∧
      (∀ n, q.visits question.start w = .ok n → run.result = .error .emptyReduce ∧
        run.query.stats.Describes q question.start ∧ run.query.stats.visited = n) ∧
      ∀ fault, q.visits question.start w = .error fault → run.result = .error fault ∧
        run.query.stats = before ∧ line.FailsUpstream q.source fault) ∧
    (q.Apart question → arrived.map Arrival.item <+: s.items ∧
      (∀ start rest, folding? id seed? s.items = some (start, rest) →
        let reply := (rest.foldlM fold start).run w
        run.result = (reply.result >>= fun last => s.complete last) ∧
          run.world.state = reply.world.state) ∧
      (seed? = none → s.items = [] →
        run.result = (s.complete () >>= fun _ => .error .emptyReduce) ∧
          run.world.state = w.state)) := by
  intro q question line arrived run before calls s
  have hfolds := Terminal.folds_reduceStep fold
  have hstart : question.start = .reduce fold seed? := rfl
  have hcalls : calls = foldCalls (Question.reduceStep fold)
      (Question.reduceCalls history.length) seed? arrived :=
    callsAfter_reduce source settings history fold seed? w
  have hstats : before = q.stats := ((ofSource source settings).stats_replay history).symm
  rw [hstats]
  refine ⟨?_, folding?_eq_none_iff, ?_, ?_⟩
  · intro start rest hstarts
    have hsteps := foldArrivals_reduceStep fold hstarts
    refine ⟨?_, ?_, ?_⟩
    · intro last hlast
      rw [hlast] at hsteps
      exact reduce_of_ok hsteps
    · intro fault hfault
      rw [hfault] at hsteps
      obtain ⟨hresult, hkept, hlast, front, last, reached, hfails⟩ :=
        failsInFold_of_error hfolds hstart hsteps
      obtain ⟨others, acc, hcallback⟩ := foldFails_of_reduceStep hstarts hfails
      exact ⟨hresult, hkept, hlast, others, last, acc, hcallback⟩
    · obtain ⟨reached, hreached⟩ := fold_dropLast (q := q) (w := w) hfolds hstart
      have hbefore := fold_dropLast_of_reduceStep hstarts hreached
      rw [hcalls, foldCalls_reduceStep history.length hstarts]
      exact getElem?_foldCalls _ hbefore
  · intro hseed hnone
    have hsteps : foldArrivals (Question.reduceStep fold) seed? arrived = .ok none := by
      rw [hseed, hnone]
      rfl
    refine ⟨?_, reduce_of_ok hsteps⟩
    rw [hcalls, hnone]
    rfl
  · intro hapart
    have hdelivered := delivered_of_folds hapart hfolds hstart (fun hlocal _ => hlocal) w
    have hmeaning := ask_of_apart hapart w
    refine ⟨hdelivered.1, ?_, ?_⟩
    · intro start rest hstarts
      rw [Question.meaning_reduce hstarts] at hmeaning
      obtain ⟨hresult, hworld⟩ := Question.completed_run (rest.foldlM fold start) s w
      exact ⟨hmeaning.1.trans hresult, hmeaning.2.trans (congrArg World.state hworld)⟩
    · intro hseed hnone
      subst hseed
      rw [Question.meaning_reduce_nil hnone] at hmeaning
      exact hmeaning

/-- Folds that pair: from a seed and from the first element, one whose callback fails at the
    second element, one of nothing, and two behind a stage that fails. -/
theorem reduce_folds_left_pairs :
    let fold : Value → Value → Act Unit Value := fun acc item => match item with
      | .undefined => .fail (.callback "no value")
      | _ => .newList [acc, item]
    let fails : Predicate Unit := fun _ => .fail (.callback "no item")
    let w : World Unit := ⟨1, ()⟩
    let seeded := Question.reduce fold (some .null)
    let unseeded := Question.reduce fold none
    let two := ofSource (σ := Unit) [.bool true, .bool false] {}
    let three := ofSource (σ := Unit) [.null, .bool true, .bool false] {}
    let failing := ofSource (σ := Unit) [.null, .undefined, .null] {}
    let nothing := ofSource (σ := Unit) [] {}
    let behind := (ofSource [.null] {}).replay [.add (.filter fails)]
    ((two.ask seeded w).result = .ok (.list 2 [.list 1 [.null, .bool true], .bool false]) ∧
      (two.ask seeded w).query.stats.Describes two seeded.start ∧
      (two.ask seeded w).world.state = () ∧
      ∃ acc, ((callsAfter two.source {} [] (seeded.start.recorded 0) w).filter
        fun call => call.place = 0)[1]? = some ⟨0, false, [acc, .bool false]⟩) ∧
    ((three.ask unseeded w).result = .ok (.list 2 [.list 1 [.null, .bool true], .bool false]) ∧
      (three.ask unseeded w).query.stats.visited = 3) ∧
    ((failing.ask unseeded w).result = .error (.callback "no value") ∧
      (failing.ask unseeded w).query.stats = {} ∧
      ∃ k, failing.FailsAt unseeded w k (.callback "no value")) ∧
    ((nothing.ask unseeded w).result = .error .emptyReduce ∧
      (nothing.ask unseeded w).query.stats.Describes nothing unseeded.start ∧
      (nothing.ask unseeded w).world.state = ()) ∧
    (behind.ask seeded w).result = .error (.callback "no item") ∧
    (behind.ask unseeded w).result = .error (.callback "no item") := by
  intro fold fails w seeded unseeded two three failing nothing behind
  obtain ⟨htwo, -, -, hapart⟩ := reduce_folds_left two.source {} [] fold (some .null) w
  obtain ⟨hthree, -⟩ := reduce_folds_left three.source {} [] fold none w
  obtain ⟨hfailing, -⟩ := reduce_folds_left failing.source {} [] fold none w
  obtain ⟨-, -, hnothing, hnothingApart⟩ := reduce_folds_left [] {} [] fold none w
  obtain ⟨hseeded, -⟩ := reduce_folds_left [.null] {} [.add (.filter fails)] fold (some .null) w
  obtain ⟨-, -, hunseeded, -⟩ := reduce_folds_left [.null] {} [.add (.filter fails)] fold none w
  have hstill : two.Apart seeded := .still (List.forall_mem_nil _)
  have hnothingStill : nothing.Apart unseeded := .still (List.forall_mem_nil _)
  obtain ⟨hpaired, hdescribes, -⟩ := ((htwo _ _ rfl).1 _ rfl).1 2 rfl
  obtain ⟨hfirst, -, hthird⟩ := ((hthree _ _ rfl).1 _ rfl).1 3 rfl
  obtain ⟨hfault, hkept, ⟨k, hk, -⟩, -⟩ := (hfailing _ _ rfl).2.1 _ rfl
  obtain ⟨hempty, hnone, -⟩ := (hnothing rfl rfl).2.1 0 rfl
  have hseed := (((hseeded _ _ rfl).1 _ rfl).2 _ rfl).1
  have hnoSeed := ((hunseeded rfl rfl).2.2 _ rfl).1
  have hstate := ((hapart hstill).2.1 _ _ rfl).2
  have hleft := ((hnothingApart hnothingStill).2.2 rfl rfl).2
  obtain ⟨acc, -, hcall⟩ := (htwo _ _ rfl).2.2.2 1 ⟨.bool false, _⟩ rfl
  exact ⟨⟨hpaired, hdescribes, hstate, acc, hcall⟩, ⟨hfirst, hthird⟩, ⟨hfault, hkept, k, hk⟩,
    ⟨hempty, hnone, hleft⟩, hseed, hnoSeed⟩

end Query

end FusedQuery
