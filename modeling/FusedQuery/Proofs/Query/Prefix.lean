/-
  FusedQuery/Proofs/Query/Prefix.lean
  ===================================
  **A run depends on the elements that it looked at, and on no others.**

  One history is replayed over two sources.  The queries it makes differ in the source alone, so
  they send their elements down the same line, and the line cannot tell the sources apart as
  long as these agree.  How far they have to agree, and what follows, is said for the three ways
  in which a run may come to its end (`prefix_decides`).
-/
import FusedQuery.Proofs.Line.Prefix
import FusedQuery.Proofs.Recording.Faithful
import FusedQuery.Proofs.Scan.Agree

namespace FusedQuery

variable {σ ρ : Type}

namespace Query

/-- The run that puts a question to the query fails in the dispatch of the element at
    position `k`. -/
def FailsAt (q : Query σ) (question : Question σ ρ) (w : World σ) (k : Nat) (fault : Fault) :
    Prop :=
  ((q.prepare question.start).line question.start w).FailsAt q.source k fault

theorem visits_eq_error_iff {q : Query σ} {question : Question σ ρ} {w : World σ}
    {fault : Fault} :
    q.visits question.start w = .error fault ↔ ∃ k, q.FailsAt question w k fault := by
  rw [visits_eq_loop]
  constructor
  · intro h
    exact Line.exists_failsAt h
  · rintro ⟨k, hk⟩
    have hfailed := hk.visited_take
    rw [← hk.drainUntilStop_eq] at hfailed
    exact hfailed

/-! ### Two sources -/

section Sources

variable {q other : Query σ} {source : List Value} {bulk : Bool} {question : Question σ ρ}
  {w : World σ}

theorem answersAs_of_take {n : Nat} (h : other.forget = q.forget.onSource source bulk)
    (hvisits : q.visits question.start w = .ok n) (hshort : n < q.source.length)
    (htake : source.take n = q.source.take n) : other.AnswersAs q question w := by
  rw [visits_eq_loop] at hvisits
  apply answersAs_of_loop
  rw [loop_of_forget h]
  exact Line.drainUntilStop_of_take hvisits hshort htake

theorem FailsAt.of_forget {k : Nat} {fault : Fault}
    (h : other.forget = q.forget.onSource source bulk) (hfails : q.FailsAt question w k fault)
    (htake : source.take (k + 1) = q.source.take (k + 1)) :
    other.FailsAt question w k fault := by
  unfold FailsAt at hfails ⊢
  rw [line_of_forget h, source_of_forget h]
  exact hfails.of_take htake

theorem answersAs_of_failsAt {k : Nat} {fault : Fault}
    (h : other.forget = q.forget.onSource source bulk) (hfails : q.FailsAt question w k fault)
    (htake : source.take (k + 1) = q.source.take (k + 1)) : other.AnswersAs q question w := by
  have hother := (hfails.of_forget h htake).drainUntilStop_eq
  rw [source_of_forget h, htake, line_of_forget h, ← hfails.drainUntilStop_eq] at hother
  apply answersAs_of_loop
  rw [loop_of_forget h]
  exact hother

/-- The elements before the one that fails are gone through. -/
theorem FailsAt.visits_take {k : Nat} {fault : Fault}
    (h : other.forget = q.forget.onSource source bulk) (hfails : q.FailsAt question w k fault)
    (htake : source = q.source.take k) : other.visits question.start w = .ok k := by
  rw [visits_eq_loop, loop_of_forget h, htake]
  exact hfails.sent

/-- The stages have nothing to do with how a query collects: it succeeds if they get through,
    with what they emit. -/
theorem collect_eq_ok_iff {xs : List Value} :
    (q.ask .collect w).result = .ok xs ↔
      (q.emit w).fault? = none ∧ (q.emit w).items = xs := by
  have hcollect : (Question.start .collect : Terminal σ (List Value)).Sees World.Any Eq := trivial
  have hstages : ∀ stage ∈ q.stages, stage.Sees Eq World.Any := fun stage _ => stage.sees_all
  have hresult := (ask_eq_meaning hstages hcollect (fun _ => rfl) (fun _ => trivial) w).1
  have hmeaning : ((Question.collect.meaning (q.emit w)).run w).result =
      (q.emit w).complete (q.emit w).items := rfl
  rw [hresult, hmeaning]
  obtain ⟨items, fault?⟩ := q.emit w
  cases fault? with
  | none =>
    constructor
    · intro h
      exact ⟨rfl, Except.ok.inj h⟩
    · rintro ⟨_, h⟩
      exact congrArg Except.ok h
  | some fault =>
    constructor
    · intro h
      cases h
    · rintro ⟨h, _⟩
      cases h

theorem collect_take {xs : List Value} {k : Nat} (h : other.forget = q.forget.onSource source bulk)
    (hcollect : (q.ask .collect w).result = .ok xs) (htake : source = q.source.take k) :
    ∃ ys, (other.ask .collect w).result = .ok ys ∧ ys <+: xs := by
  obtain ⟨hfault, rfl⟩ := collect_eq_ok_iff.mp hcollect
  have hstages : other.stages.map Stage.reset = q.stages.map Stage.reset :=
    congrArg (fun fresh => fresh.stages) h
  have hemit : other.emit w = Line.emit (q.stages.map Stage.reset) {} w (q.source.take k) := by
    unfold emit
    rw [hstages, source_of_forget h, htake]
  obtain ⟨hthrough, hitems⟩ := Line.emit_take hfault k
  rw [← hemit] at hthrough hitems
  exact ⟨(other.emit w).items, collect_eq_ok_iff.mpr ⟨hthrough, rfl⟩, hitems⟩

end Sources

/-! ### Recorded runs -/

section Recorded

variable {recording : Query (Recorded σ)} {q : Query σ} {question : Question σ ρ} {w : World σ}

theorem Mirrors.visits (h : recording.Mirrors q) (place : Nat) :
    recording.visits (question.recorded place).start w.recorded = q.visits question.start w := by
  rw [question.start_recorded]
  exact (h.traverse (Terminal.mirrors_recorded place question.start) w.recorded).visited

theorem Mirrors.failsAt (h : recording.Mirrors q) (place : Nat) {k : Nat} {fault : Fault}
    (hfails : q.FailsAt question w k fault) :
    recording.FailsAt (question.recorded place) w.recorded k fault := by
  have hterminal := Terminal.mirrors_recorded place question.start
  have hready := h.prepare hterminal
  unfold FailsAt at hfails ⊢
  rw [question.start_recorded, h.source]
  exact Line.Mirrors.failsAt ⟨hready.stages, hready.control, hterminal, rfl⟩ hfails

end Recorded

/-- **A run depends only on the elements of the source that it visited.**  One history is
    replayed over several sources.

    A run that answers early gives the same on every source with the same visited elements.  A
    run that fails on its way does so at one element, and gives the same on every source that
    agrees up to that one.  A collection that succeeds does so on each beginning of the source,
    with a beginning of what it collects. -/
theorem prefix_decides (source : List Value) (settings : Settings) (history : List (Event σ))
    (question : Question σ ρ) (w : World σ) :
    let query (s : List Value) : Query σ := (ofSource s settings).replay history
    let calls (s : List Value) : List Call :=
      callsAfter s settings (history.mapIdx Event.recorded)
        (question.start.recorded history.length) w
    let stats := ((query source).ask question w).query.stats
    (∀ answer, ((query source).ask question w).result = .ok answer → stats.stoppedEarly = true →
      ∀ other : List Value, other.take stats.visited = source.take stats.visited →
        (query other).AnswersAs (query source) question w ∧
          ((query other).ask question w).query.stats.visited = stats.visited ∧
          calls other = calls source) ∧
    (∀ fault, (query source).visits question.start w = .error fault ↔
      ∃ k, (query source).FailsAt question w k fault) ∧
    (∀ k fault, (query source).FailsAt question w k fault →
      (query (source.take k)).visits question.start w = .ok k ∧
        ∀ other : List Value, other.take (k + 1) = source.take (k + 1) →
          (query other).FailsAt question w k fault ∧
            ((query other).ask question w).result = .error fault ∧
            (query other).AnswersAs (query source) question w ∧
            calls other = calls source) ∧
    (∀ items, ((query source).ask .collect w).result = .ok items → ∀ k,
      ∃ first, ((query (source.take k)).ask .collect w).result = .ok first ∧ first <+: items) := by
  intro query calls stats
  have hquery : ∀ {τ : Type} (past : List (Event τ)) (other : List Value),
      ((ofSource other settings).replay past).forget =
        ((ofSource source settings).replay past).forget.onSource other settings.bulk := by
    intro τ past other
    exact forget_replay_ofSource source other settings settings.bulk past
  have hsource : ∀ {τ : Type} (past : List (Event τ)),
      ((ofSource source settings).replay past).source = source := by
    intro τ past
    exact source_replay _ past
  have hmirrors := replay_mirrors source settings history
  refine ⟨?_, ?_, ?_, ?_⟩
  · intro answer hanswer hearly other htake
    have hvisits := visits_of_result hanswer
    have hshort : stats.visited < source.length := by
      have hlt := (stoppedEarly_ask hvisits).mp hearly
      rwa [hsource] at hlt
    have hsame := answersAs_of_take (hquery history other) hvisits
      (by rw [hsource]; exact hshort) (by rw [hsource]; exact htake)
    refine ⟨hsame, visited_ask (hsame.visits.trans hvisits), callsAfter_of_answersAs ?_⟩
    have hrecorded := (hmirrors.visits history.length).trans hvisits
    exact answersAs_of_take (hquery _ other) hrecorded
      (by rw [hsource]; exact hshort) (by rw [hsource]; exact htake)
  · intro fault
    exact visits_eq_error_iff
  · intro k fault hfails
    constructor
    · exact hfails.visits_take (hquery history (source.take k)) (by rw [hsource])
    · intro other htake
      have hagree : ∀ {τ : Type} (past : List (Event τ)),
          other.take (k + 1) = ((ofSource source settings).replay past).source.take (k + 1) := by
        intro τ past
        rw [hsource, htake]
      have hfailsToo := hfails.of_forget (hquery history other) (hagree history)
      have hfault := result_of_visits (visits_eq_error_iff.mpr ⟨k, hfailsToo⟩)
      have hsame := answersAs_of_failsAt (hquery history other) hfails (hagree history)
      have hrecorded := hmirrors.failsAt history.length hfails
      have hcalled := answersAs_of_failsAt (hquery _ other) hrecorded (hagree _)
      exact ⟨hfailsToo, hfault, hsame, callsAfter_of_answersAs hcalled⟩
  · intro items hcollect k
    exact collect_take (hquery history (source.take k)) hcollect (by rw [hsource])

/-- A query for the first two elements that fails on `undefined`. -/
theorem prefix_decides_two :
    let fails : Predicate Unit := fun v => match v with
      | .undefined => .fail (.callback "no value")
      | _ => .ofExcept (.ok true)
    let query (s : List Value) := (ofSource s {}).replay [.add (.filter fails), .add (.take 2)]
    let enough := (query [.null, .bool true, .undefined]).ask .collect ⟨0, ()⟩
    let fault := Fault.callback "no value"
    -- It stops before the third element, so another one may stand there.
    enough.result = .ok [.null, .bool true] ∧ enough.query.stats.stoppedEarly = true ∧
      ((query [.null, .bool true]).ask .collect ⟨0, ()⟩).query.stats.visited = 2 ∧
      (∃ first, ((query [.null]).ask .collect ⟨0, ()⟩).result = .ok first ∧
        first <+: [.null, .bool true]) ∧
      -- It fails at the second element, whatever stands behind that one.
      (query [.null, .undefined]).FailsAt .collect ⟨0, ()⟩ 1 fault ∧
      ((query [.null, .undefined, .null]).ask .collect ⟨0, ()⟩).result = .error fault := by
  intro fails query enough fault
  let history : List (Event Unit) := [.add (.filter fails), .add (.take 2)]
  have hresult : enough.result = .ok [.null, .bool true] := rfl
  have hearly : enough.query.stats.stoppedEarly = true := rfl
  have hfails : (query [.null, .undefined]).FailsAt .collect ⟨0, ()⟩ 1 fault :=
    ⟨rfl, rfl, .undefined, rfl, rfl⟩
  obtain ⟨hanswers, _, _, hcollects⟩ :=
    prefix_decides [.null, .bool true, .undefined] {} history .collect ⟨0, ()⟩
  obtain ⟨_, _, hfaults, _⟩ := prefix_decides [.null, .undefined] {} history .collect ⟨0, ()⟩
  have htwo := hanswers _ hresult hearly [.null, .bool true] rfl
  have hone := hcollects _ hresult 1
  have hlonger := (hfaults 1 fault hfails).2 [.null, .undefined, .null] rfl
  exact ⟨hresult, hearly, htwo.2.1, hone, hfails, hlonger.2.1⟩

end Query

end FusedQuery
