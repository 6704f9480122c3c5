/-
  FusedQuery/Proofs/Extremum/Earliest.lean
  ========================================
  **The least and the greatest element are the earliest of their rank.**

  Going through elements with their ranks, the best so far stands at a place where everything
  before it is worse and nothing after it is better; an element whose rank is NaN counts for
  neither (`Pick.Best`).  One more element keeps that (`Pick.best_update`), so it holds of the
  whole list, and then the best is the earliest of the best rank (`Pick.chooses_of_best`).

  Asking a query for an extremum picks from what is delivered, each element ranked in the world
  in which it arrives, and so it does not depend on the elements whose rank is NaN
  (`extremum_chooses_earliest`).
-/
import Mathlib.Data.List.Induction
import FusedQuery.Proofs.Number.Units
import FusedQuery.Proofs.Query.Folding

namespace FusedQuery

variable {σ : Type}

namespace Pick

/-- What has more of it is better. -/
def height (pick : Pick) (rank : Number) : Int :=
  match pick with
  | .min => -rank.ordinal
  | .max => rank.ordinal

/-- Whether an element with its rank is worth looking at. -/
def isRanked (pair : Number × Value) : Bool := !pair.1.isNaN

/-- The best so far and one more element. -/
def update (pick : Pick) (best? : Option (Number × Value)) (pair : Number × Value) :
    Option (Number × Value) :=
  if isRanked pair && (match best? with
    | none => true
    | some best => pick.better pair.1 best.1) then some pair else best?

/-- The answer is the earliest element of the best rank, if there is any with a rank. -/
structure Chooses (pick : Pick) (ranked : List (Number × Value)) (best? : Option Value) :
    Prop where
  none_iff : best? = none ↔ ∀ pair ∈ ranked, pair.1.isNaN = true
  earliest {v : Value} : best? = some v →
    ∃ (i : Nat) (r : Number), ranked[i]? = some (r, v) ∧ r.isNaN = false ∧
      (pick = .min → ∀ pair ∈ ranked, pair.1.below r = false) ∧
      (pick = .max → ∀ pair ∈ ranked, r.below pair.1 = false) ∧
      ∀ (j : Nat) (pair : Number × Value), j < i → ranked[j]? = some pair →
        pair.1.equal r = false

/-- What is known of the best so far. -/
inductive Best (pick : Pick) (ranked : List (Number × Value)) : Option (Number × Value) → Prop
  | none : (∀ pair ∈ ranked, pair.1.isNaN = true) → Best pick ranked none
  | some {before after : List (Number × Value)} {best : Number × Value} :
      ranked = before ++ best :: after → best.1.isNaN = false →
      (∀ pair ∈ before, pair.1.isNaN = false → pick.height pair.1 < pick.height best.1) →
      (∀ pair ∈ after, pair.1.isNaN = false → pick.height pair.1 ≤ pick.height best.1) →
      Best pick ranked (some best)

/-! ### Ranks -/

theorem better_iff {pick : Pick} {r best : Number} : pick.better r best = true ↔
    r.isNaN = false ∧ best.isNaN = false ∧ pick.height best < pick.height r := by
  cases pick with
  | min =>
    rw [better, Number.below_iff, height, height, Int.neg_lt_neg_iff]
  | max =>
    rw [better, Number.below_iff, height, height, and_left_comm]

theorem better_eq_false {pick : Pick} {r best : Number}
    (h : r.isNaN = false → pick.height r ≤ pick.height best) : pick.better r best = false := by
  rw [Bool.eq_false_iff, Ne, better_iff]
  rintro ⟨hnumber, -, hlt⟩
  exact absurd (h hnumber) (Int.not_le.mpr hlt)

theorem height_eq_of_equal {pick : Pick} {r best : Number} (h : r.equal best = true) :
    pick.height r = pick.height best := by
  have hordinal := (Number.equal_iff.mp h).2.2
  cases pick with
  | min => rw [height, height, hordinal]
  | max => exact hordinal

/-! ### One more element -/

theorem update_of_isNaN {pick : Pick} {best? : Option (Number × Value)} {pair : Number × Value}
    (h : pair.1.isNaN = true) : pick.update best? pair = best? := by
  rw [update.eq_def, isRanked, h]
  rfl

theorem update_none {pick : Pick} {pair : Number × Value} (h : pair.1.isNaN = false) :
    pick.update none pair = some pair := by
  rw [update.eq_def, isRanked, h]
  rfl

theorem update_some {pick : Pick} {best pair : Number × Value} (h : pair.1.isNaN = false) :
    pick.update (some best) pair = if pick.better pair.1 best.1 then some pair else some best := by
  rw [update.eq_def, isRanked, h]
  rfl

/-- A new best is better than all before it; any other element is no better than the best. -/
theorem best_update {pick : Pick} {ranked : List (Number × Value)}
    {best? : Option (Number × Value)} (h : pick.Best ranked best?) (pair : Number × Value) :
    pick.Best (ranked ++ [pair]) (pick.update best? pair) := by
  have hlast : ∀ {P : Number × Value → Prop} {front : List (Number × Value)},
      (∀ other ∈ front, P other) → P pair → ∀ other ∈ front ++ [pair], P other := by
    intro P front hfront hpair other hmem
    rcases List.mem_append.mp hmem with hmem | hmem
    · exact hfront other hmem
    · rwa [List.mem_singleton.mp hmem]
  cases hnan : pair.1.isNaN with
  | true =>
    rw [update_of_isNaN hnan]
    cases h with
    | none hall => exact .none (hlast hall hnan)
    | some hsplit hbest hbefore hafter =>
      have hlonger := congrArg (· ++ [pair]) hsplit
      rw [List.append_assoc, List.cons_append] at hlonger
      refine .some hlonger hbest hbefore (hlast hafter ?_)
      intro hnumber
      rw [hnan] at hnumber
      cases hnumber
  | false =>
    cases h with
    | none hall =>
      rw [update_none hnan]
      refine .some rfl hnan ?_ (List.forall_mem_nil _)
      intro other hmem hnumber
      rw [hall other hmem] at hnumber
      cases hnumber
    | @some before after best hsplit hbest hbefore hafter =>
      rw [update_some hnan]
      cases hbetter : pick.better pair.1 best.1 with
      | true =>
        have hhigher := (better_iff.mp hbetter).2.2
        refine .some rfl hnan ?_ (List.forall_mem_nil _)
        intro other hmem hnumber
        rw [hsplit, List.mem_append, List.mem_cons] at hmem
        rcases hmem with hmem | rfl | hmem
        · exact Int.lt_trans (hbefore other hmem hnumber) hhigher
        · exact hhigher
        · exact Int.lt_of_le_of_lt (hafter other hmem hnumber) hhigher
      | false =>
        have hlonger := congrArg (· ++ [pair]) hsplit
        rw [List.append_assoc, List.cons_append] at hlonger
        refine .some hlonger hbest hbefore (hlast hafter ?_)
        intro _
        rw [Bool.eq_false_iff, Ne, better_iff] at hbetter
        exact Int.not_lt.mp fun hlt => hbetter ⟨hnan, hbest, hlt⟩

/-! ### All elements -/

theorem best_foldl (pick : Pick) (ranked : List (Number × Value)) :
    pick.Best ranked (ranked.foldl pick.update none) := by
  induction ranked using List.reverseRecOn with
  | nil => exact .none (List.forall_mem_nil _)
  | append_singleton front pair ih =>
    rw [List.foldl_concat]
    exact best_update ih pair

theorem chooses_of_best {pick : Pick} {ranked : List (Number × Value)}
    {best? : Option (Number × Value)} (h : pick.Best ranked best?) :
    pick.Chooses ranked (best?.map Prod.snd) := by
  cases h with
  | none hall => exact ⟨iff_of_true rfl hall, nofun⟩
  | @some before after best hsplit hbest hbefore hafter =>
    subst hsplit
    have hmem : best ∈ before ++ best :: after := List.mem_append_right _ List.mem_cons_self
    constructor
    · refine iff_of_false nofun ?_
      intro hall
      rw [hall best hmem] at hbest
      cases hbest
    · intro v hv
      obtain rfl := Option.some.inj hv
      have hunbeaten : ∀ pair ∈ before ++ best :: after, pick.better pair.1 best.1 = false := by
        intro pair hpair
        rw [List.mem_append, List.mem_cons] at hpair
        apply better_eq_false
        intro hnumber
        rcases hpair with hpair | rfl | hpair
        · exact Int.le_of_lt (hbefore pair hpair hnumber)
        · exact Int.le_refl _
        · exact hafter pair hpair hnumber
      refine ⟨before.length, best.1, ?_, hbest, ?_, ?_, ?_⟩
      · rw [List.getElem?_append_right (Nat.le_refl _), Nat.sub_self]
        rfl
      · rintro rfl
        exact hunbeaten
      · rintro rfl
        exact hunbeaten
      · intro j pair hj hpair
        rw [List.getElem?_append_left hj] at hpair
        rw [Bool.eq_false_iff]
        intro hequal
        have hnumber := (Number.equal_iff.mp hequal).1
        have hlower := hbefore pair (List.mem_of_getElem? hpair) hnumber
        exact absurd (height_eq_of_equal hequal) (Int.ne_of_lt hlower)

/-- Elements without a rank may as well not be there. -/
theorem foldl_filter_isRanked (pick : Pick) (ranked : List (Number × Value)) :
    (ranked.filter isRanked).foldl pick.update none = ranked.foldl pick.update none := by
  rw [List.foldl_filter]
  congr 1
  funext best? pair
  cases hnan : pair.1.isNaN with
  | true =>
    rw [update_of_isNaN hnan, isRanked, hnan]
    rfl
  | false =>
    rw [isRanked, hnan]
    rfl

end Pick

/-! ### Picking from what is delivered -/

/-- An arrival with its rank, or the fault of the callback that ranks it. -/
def Arrival.ranked (rank : Value → Act σ Number) (arrival : Arrival σ) :
    Except Fault (Number × Value) :=
  ((rank arrival.item).run arrival.world).result.map fun r => (r, arrival.item)

theorem snd_of_ranked {rank : Value → Act σ Number} {arrival : Arrival σ} {pair : Number × Value}
    (h : arrival.ranked rank = .ok pair) : pair.2 = arrival.item := by
  unfold Arrival.ranked at h
  cases hrank : ((rank arrival.item).run arrival.world).result with
  | error fault =>
    rw [hrank] at h
    cases h
  | ok r =>
    rw [hrank] at h
    cases h
    rfl

theorem result_extremumStep (rank : Value → Act σ Number) (pick : Pick)
    (best? : Option (Number × Value)) (arrival : Arrival σ) :
    ((Question.extremumStep rank pick best? arrival.item).run arrival.world).result =
      (arrival.ranked rank).map (pick.update best?) := by
  rw [Question.extremumStep, Act.run_bind, Arrival.ranked]
  rcases ((rank arrival.item).run arrival.world).result with fault | r <;> rfl

theorem extremumStep_mirrors (place : Nat) (rank : Value → Act σ Number) (pick : Pick)
    (best? : Option (Number × Value)) (item : Value) :
    (Question.extremumStep (recordedCallback place false rank) pick best? item).Mirrors
      (Question.extremumStep rank pick best? item) :=
  (Act.mirrors_recorded _ (rank item)).map _

namespace Query

/-- Each element is ranked once. -/
theorem callsAt_extremumStep (place : Nat) (rank : Value → Act σ Number) (pick : Pick)
    (best? : Option (Number × Value)) (item : Value) (w : World (Recorded σ)) :
    ((Question.extremumStep (recordedCallback place false rank) pick best? item).run
        w).world.callsAt place = w.callsAt place ++ [⟨place, false, [item]⟩] := by
  have hcall := World.callsAt_recorded place (rank item) ⟨place, false, [item]⟩ w
  rw [if_pos rfl] at hcall
  rw [Question.extremumStep, Act.run_bind, ← hcall, recordedCallback]
  rcases (((rank item).recorded ⟨place, false, [item]⟩).run w).result with fault | r <;> rfl

/-- What the ranks of all that is delivered say of the answer. -/
theorem extremum_of_ranked {q : Query σ} {rank : Value → Act σ Number} {pick : Pick} {w : World σ}
    {ranked : List (Number × Value)} {n : Nat} :
    let question := Question.extremum rank pick
    let line := (q.prepare question.start).line question.start w
    (line.delivered q.source).mapM (Arrival.ranked rank) = .ok ranked →
      q.visits question.start w = .ok n →
      (q.ask question w).result = .ok ((ranked.foldl pick.update none).map Prod.snd) := by
  intro question line hranked hn
  have hsteps := foldArrivals_eq_mapM (result_extremumStep rank pick) none
    (line.delivered q.source)
  rw [hranked] at hsteps
  exact (result_of_fold (Terminal.folds_extremum rank pick) rfl hsteps).1 n hn

/-- **An extremum is the earliest element of the best rank,** and there is none if every rank is
    NaN. -/
theorem extremum_chooses_earliest (source : List Value) (settings : Settings)
    (history : List (Event σ)) (rank : Value → Act σ Number) (pick : Pick) (w : World σ) :
    let q := (ofSource source settings).replay history
    let question := Question.extremum rank pick
    let line := (q.prepare question.start).line question.start w
    let arrived := line.delivered q.source
    let recorded := history.mapIdx Event.recorded
    (∀ ranked, arrived.mapM (Arrival.ranked rank) = .ok ranked →
      ranked.map Prod.snd = arrived.map Arrival.item ∧
      (∀ n, q.visits question.start w = .ok n →
        (∃ best?, (q.ask question w).result = .ok best? ∧ pick.Chooses ranked best?) ∧
        -- Another query answers the same if it differs in elements without a rank.
        ∀ {τ : Type} (other : Query τ) (rank' : Value → Act τ Number) (w' : World τ),
          let question' := Question.extremum rank' pick
          let line' := (other.prepare question'.start).line question'.start w'
          ∀ ranked' n', (line'.delivered other.source).mapM (Arrival.ranked rank') = .ok ranked' →
            other.visits question'.start w' = .ok n' →
            ranked'.filter Pick.isRanked = ranked.filter Pick.isRanked →
            (other.ask question' w').result = (q.ask question w).result) ∧
      ∀ fault, q.visits question.start w = .error fault →
        (q.ask question w).result = .error fault ∧ line.FailsUpstream q.source fault) ∧
    (∀ fault, arrived.mapM (Arrival.ranked rank) = .error fault →
      (q.ask question w).result = .error fault ∧
      ∃ front last ranked, arrived = front ++ [last] ∧
        front.mapM (Arrival.ranked rank) = .ok ranked ∧ last.ranked rank = .error fault) ∧
    ((callsAfter source settings recorded (question.start.recorded history.length) w).filter
        fun call => call.place = history.length) =
      arrived.map (fun arrival => ⟨history.length, false, [arrival.item]⟩) ∧
    (q.Apart question → arrived.map Arrival.item <+: (q.stream w).items ∧
      ∀ ranked, arrived.mapM (Arrival.ranked rank) = .ok ranked →
        arrived.map Arrival.item = (q.stream w).items) ∧
    (∀ m n : Number,
      (m.below n = true ↔ m.isNaN = false ∧ n.isNaN = false ∧ m.units < n.units) ∧
      (m.equal n = true ↔ m.isNaN = false ∧ n.isNaN = false ∧ m.units = n.units)) := by
  intro q question line arrived recorded
  have hfolds := Terminal.folds_extremum rank pick
  have hstart : question.start = .extremum rank pick none := rfl
  have hsteps := foldArrivals_eq_mapM (result_extremumStep rank pick) none arrived
  refine ⟨?_, ?_, ?_, ?_, fun m n => ⟨Number.below_iff_units, Number.equal_iff_units⟩⟩
  · intro ranked hranked
    rw [hranked] at hsteps
    refine ⟨map_of_mapM (fun _ _ => snd_of_ranked) hranked, ?_,
      (result_of_fold hfolds hstart hsteps).2⟩
    intro n hn
    have hresult := extremum_of_ranked hranked hn
    refine ⟨⟨_, hresult, Pick.chooses_of_best (pick.best_foldl ranked)⟩, ?_⟩
    intro τ other rank' w' question' line' ranked' n' hranked' hn' hsame
    have hother := extremum_of_ranked hranked' hn'
    rw [hresult, hother, ← pick.foldl_filter_isRanked, hsame, pick.foldl_filter_isRanked]
  · intro fault hfault
    rw [hfault] at hsteps
    exact ⟨(failsInFold_of_error hfolds hstart hsteps).result,
      split_of_mapM_error (result_extremumStep rank pick) (fold_dropLast hfolds hstart) hfault⟩
  · exact callsAfter_folds_once source settings history question w hfolds hstart
      (Terminal.folds_extremum _ pick) rfl (extremumStep_mirrors history.length rank pick)
      (callsAt_extremumStep history.length rank pick)
  · intro hapart
    have hdelivered := delivered_of_folds hapart hfolds hstart (fun hlocal _ => hlocal) w
    refine ⟨hdelivered.1, ?_⟩
    intro ranked hranked
    rw [hranked] at hsteps
    exact hdelivered.2 _ hsteps

/-- The least of some numbers: the first of two zeros, with NaN before them or not; one that
    meets an element that is no number, and one behind a stage that fails. -/
theorem extremum_chooses_earliest_zero :
    let rank : Value → Act Unit Number := fun v => match v with
      | .number n => pure n
      | _ => .fail (.callback "no number")
    let question := Question.extremum rank .min
    let w : World Unit := ⟨1, ()⟩
    let all := ofSource (σ := Unit)
      [.number .nan, .number (.ofInt 1), .number (.ofParts true 0), .number .zero] {}
    let without := ofSource (σ := Unit)
      [.number (.ofInt 1), .number (.ofParts true 0), .number .zero] {}
    let failing := ofSource (σ := Unit) [.number .zero, .null, .number .nan] {}
    let fails : Predicate Unit := fun _ => .fail (.callback "no value")
    let behind := (ofSource [.null] {}).replay [.add (.filter fails)]
    let line := (behind.prepare question.start).line question.start w
    (∃ best?, (all.ask question w).result = .ok best? ∧
      Pick.min.Chooses [(.nan, .number .nan), (.ofInt 1, .number (.ofInt 1)),
        (.ofParts true 0, .number (.ofParts true 0)), (.zero, .number .zero)] best?) ∧
    (without.ask question w).result = .ok (some (.number (.ofParts true 0))) ∧
    (without.ask question w).result = (all.ask question w).result ∧
    (all.stream w).items = all.source ∧
    (failing.ask question w).result = .error (.callback "no number") ∧
    (behind.ask question w).result = .error (.callback "no value") ∧
    line.FailsUpstream [.null] (.callback "no value") := by
  intro rank question w all without failing fails behind line
  obtain ⟨hall, -, -, hapart, -⟩ := extremum_chooses_earliest all.source {} [] rank .min w
  obtain ⟨-, hfailing, -⟩ := extremum_chooses_earliest failing.source {} [] rank .min w
  obtain ⟨hbehind, -⟩ := extremum_chooses_earliest [.null] {} [.add (.filter fails)] rank .min w
  obtain ⟨-, hthrough, -⟩ := hall _ rfl
  obtain ⟨hchosen, hothers⟩ := hthrough 4 rfl
  have hwithout := hothers without rank w _ 3 rfl rfl rfl
  have hstill : all.Apart question := .still (List.forall_mem_nil _)
  have hfault := (hbehind [] rfl).2.2 (.callback "no value") rfl
  exact ⟨hchosen, rfl, hwithout, ((hapart hstill).2 _ rfl).symm, (hfailing _ rfl).1, hfault⟩

end Query

end FusedQuery
