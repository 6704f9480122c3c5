/-
  FusedQuery/Proofs/Fusion/Pairing.lean
  =====================================
  **Merging pairs neighbours off, from the left.**

  A filter or a map merges with the last stage only, and only if that stage stands alone.  So
  in a row of filters and maps the first merges with the second, the third with the fourth, and
  one is left over if their number is odd (`inPairs`, `Paired`).  Any other operator that adds a
  stage ends the row: what comes after it is built as if nothing stood before
  (`stages_addAll_of_closed`).

  Runs may come in between.  They change nothing in what the next operator finds, since a stage
  merges or does not merge whatever it has learnt.
-/
import FusedQuery.Proofs.Fusion.Transparent
import FusedQuery.Proofs.History.Forget
import FusedQuery.Proofs.Meaning.Operators

namespace FusedQuery

variable {σ ρ : Type}

/-! ### Rows of filters and maps -/

/-- Two filters or maps as one stage. -/
def Fusible.merge : Fusible σ → Fusible σ → Stage σ
  | .filter early, .filter late => .filterFilter early late
  | .filter test, .map change => .filterMap test change
  | .map change, .filter test => .mapFilter change test
  | .map early, .map late => .mapMap early late

theorem Stage.fuse?_stage (early late : Fusible σ) :
    early.stage.fuse? late = some (early.merge late) := by
  cases early <;> cases late <;> rfl

/-- What is merged already merges no more. -/
theorem Stage.fuse?_of_isFused {stage : Stage σ} (h : stage.isFused = true) (new : Fusible σ) :
    stage.fuse? new = none := by
  cases stage with
  | filter test => cases h
  | map change => cases h
  | _ => rfl

/-- What is merged has nothing to forget. -/
theorem Stage.reset_of_isFused {stage : Stage σ} (h : stage.isFused = true) :
    stage.reset = stage := by
  cases stage with
  | zip other pos => cases h
  | slice start bound pos => cases h
  | take limit taken => cases h
  | get index pos => cases h
  | uniq eq? seen => cases h
  | _ => rfl

theorem Fusible.isFused_merge (early late : Fusible σ) : (early.merge late).isFused = true := by
  cases early <;> cases late <;> rfl

theorem Fusible.isFused_stage (new : Fusible σ) : new.stage.isFused = false := by
  cases new <;> rfl

/-- The stages of filters and maps that stand next to each other. -/
def inPairs : List (Fusible σ) → List (Stage σ)
  | [] => []
  | [last] => [last.stage]
  | early :: late :: rest => early.merge late :: inPairs rest

/-- Each two of the calls, in their order, have become one stage, and the last of them stands
    alone if it has none to go with. -/
structure Paired (calls : List (Fusible σ)) (stages : List (Stage σ)) : Prop where
  place (i : Nat) : stages[i]? =
    calls[2 * i]?.map fun early => calls[2 * i + 1]?.elim early.stage early.merge
  length : stages.length = (calls.length + 1) / 2
  fused {i : Nat} {stage : Stage σ} : stages[i]? = some stage →
    (stage.isFused = true ↔ 2 * i + 1 < calls.length)

theorem getElem?_inPairs (calls : List (Fusible σ)) (i : Nat) :
    (inPairs calls)[i]? =
      calls[2 * i]?.map fun early => calls[2 * i + 1]?.elim early.stage early.merge := by
  fun_induction inPairs calls generalizing i with
  | case1 => rfl
  | case2 last => cases i <;> rfl
  | case3 early late rest ih =>
    cases i with
    | zero => rfl
    | succ i => exact ih i

theorem length_inPairs (calls : List (Fusible σ)) :
    (inPairs calls).length = (calls.length + 1) / 2 := by
  fun_induction inPairs calls with
  | case1 => simp only [List.length_nil, Nat.reduceAdd, Nat.reduceDiv]
  | case2 last => simp only [List.length_singleton, Nat.reduceAdd, Nat.reduceDiv]
  | case3 early late rest ih =>
    simp only [List.length_cons, ih]
    omega

theorem paired_inPairs (calls : List (Fusible σ)) : Paired calls (inPairs calls) := by
  refine ⟨getElem?_inPairs calls, length_inPairs calls, ?_⟩
  intro i stage hstage
  rw [getElem?_inPairs] at hstage
  obtain ⟨early, _, rfl⟩ := Option.map_eq_some_iff.mp hstage
  cases hlate : calls[2 * i + 1]? with
  | none =>
    have hlength := List.getElem?_eq_none_iff.mp hlate
    simp only [Option.elim_none, early.isFused_stage, Bool.false_eq_true, false_iff]
    omega
  | some late =>
    obtain ⟨hlength, _⟩ := List.getElem?_eq_some_iff.mp hlate
    simp only [Option.elim_some, early.isFused_merge, true_iff]
    exact hlength

/-! ### Operators -/

/-- An operator that separates adds the one stage that it needs. -/
theorem Operator.Separates.alone {operator : Operator σ} (h : operator.Separates) :
    ∃ stage : Stage σ, stage.Alone ∧ operator.stages = [stage] ∧
      ∀ q : Query σ, (q.add operator).stages = q.stages ++ operator.stages := by
  cases operator.adds with
  | fusible new hnew _ =>
    rw [h.1] at hnew
    cases hnew
  | nothing hslice _ => exact absurd hslice h.2
  | alone stage _ halone hadd =>
    have hstages : operator.stages = [stage] := by
      rw [stages, hadd]
      rfl
    refine ⟨stage, halone, hstages, ?_⟩
    intro q
    rw [hadd, hstages]
    rfl

namespace Query

variable {q p : Query σ}

theorem settings_add (q : Query σ) (operator : Operator σ) :
    (q.add operator).settings = q.settings := by
  rw [q.add_eq operator]

/-- Nothing can merge with the last of the stages. -/
def Closed (stages : List (Stage σ)) : Prop :=
  ∀ new, stages.getLast?.bind (·.fuse? new) = none

theorem closed_concat (front : List (Stage σ)) {last : Stage σ}
    (h : ∀ new, last.fuse? new = none) : Closed (front ++ [last]) := by
  intro new
  rw [List.getLast?_concat, Option.bind_some, h]

/-! ### Behind closed stages -/

theorem stages_pushFusible_of_closed {front : List (Stage σ)} (hclosed : Closed front)
    (hsettings : q.settings = p.settings) (h : q.stages = front ++ p.stages) (new : Fusible σ) :
    (q.pushFusible new).stages = front ++ (p.pushFusible new).stages := by
  unfold pushFusible
  rw [hsettings, h]
  cases p.settings.fuse with
  | false =>
    simp only [push, h, List.append_assoc, Bool.false_eq_true, ↓reduceIte]
  | true =>
    simp only [↓reduceIte]
    rcases List.eq_nil_or_concat p.stages with hnil | ⟨init, last, hlast⟩
    · rw [hnil, List.append_nil, hclosed new]
      simp only [push, h, hnil, List.getLast?_nil, Option.bind_none, List.append_nil, List.nil_append]
    · rw [hlast, List.concat_eq_append, ← List.append_assoc, List.getLast?_concat, List.getLast?_concat, Option.bind_some]
      cases last.fuse? new with
      | none => simp only [push, h, hlast, List.concat_eq_append, List.append_assoc]
      | some merged =>
        simp only [List.dropLast_concat]
        exact List.append_assoc _ _ _

theorem stages_add_of_closed {front : List (Stage σ)} (hclosed : Closed front)
    (hsettings : q.settings = p.settings) (h : q.stages = front ++ p.stages)
    (operator : Operator σ) : (q.add operator).stages = front ++ (p.add operator).stages := by
  cases operator.adds with
  | fusible new _ hadd =>
    rw [hadd, hadd]
    exact stages_pushFusible_of_closed hclosed hsettings h new
  | nothing _ hadd =>
    rw [hadd, hadd]
    exact h
  | alone stage _ _ hadd =>
    rw [hadd, hadd, push, push, h]
    exact List.append_assoc _ _ _

/-- **What is built behind closed stages is built as if they were not there.** -/
theorem stages_addAll_of_closed {front : List (Stage σ)} (hclosed : Closed front)
    (hsettings : q.settings = p.settings) (h : q.stages = front ++ p.stages)
    (operators : List (Operator σ)) :
    (q.addAll operators).stages = front ++ (p.addAll operators).stages := by
  induction operators generalizing q p with
  | nil => exact h
  | cons operator rest ih =>
    apply ih
    · rw [settings_add, settings_add, hsettings]
    · exact stages_add_of_closed hclosed hsettings h operator

/-! ### Rows -/

/-- One more filter or map takes its place in the row. -/
theorem stages_pushFusible_inPairs {calls : List (Fusible σ)} (hfuse : q.settings.fuse = true)
    (h : q.stages = inPairs calls) (new : Fusible σ) :
    (q.pushFusible new).stages = inPairs (calls ++ [new]) := by
  fun_induction inPairs calls generalizing q with
  | case1 => simp only [pushFusible, h, hfuse, push]; rfl
  | case2 last =>
    have hmerge := Stage.fuse?_stage last new
    simp only [pushFusible, h, hfuse, ↓reduceIte, List.getLast?_singleton, Option.bind_some, hmerge]
    rfl
  | case3 early late rest ih =>
    let behind : Query σ := { q with stages := inPairs rest }
    have hclosed : Closed [early.merge late] :=
      Stage.fuse?_of_isFused (early.isFused_merge late)
    have hfirst : q.stages = [early.merge late] ++ behind.stages := h
    have hrest : (behind.pushFusible new).stages = inPairs (rest ++ [new]) := ih hfuse rfl
    have hsettings : q.settings = behind.settings := rfl
    have hstages := stages_pushFusible_of_closed hclosed hsettings hfirst new
    rw [hrest] at hstages
    exact hstages

theorem stages_addAll_inPairs {calls : List (Fusible σ)} (hfuse : q.settings.fuse = true)
    (h : q.stages = inPairs calls) {operators : List (Operator σ)}
    (hrow : ∀ operator ∈ operators, ¬ operator.Separates) :
    (q.addAll operators).stages = inPairs (calls ++ operators.filterMap Operator.fusible?) := by
  induction operators generalizing q calls with
  | nil =>
    rw [List.filterMap_nil, List.append_nil]
    exact h
  | cons operator rest ih =>
    have hrest := fun operator hmem => hrow operator (List.mem_cons_of_mem _ hmem)
    cases operator.adds with
    | fusible new hnew hadd =>
      have hsettings : (q.add operator).settings.fuse = true := by rw [settings_add, hfuse]
      rw [List.filterMap_cons_some hnew, List.append_cons]
      apply ih hsettings _ hrest
      rw [hadd]
      exact stages_pushFusible_inPairs hfuse h new
    | nothing hslice hadd =>
      have hnone : operator.fusible? = none := by rw [hslice]; rfl
      have hrow := ih hfuse h hrest
      rw [List.filterMap_cons_none hnone, addAll, List.foldl_cons, hadd]
      exact hrow
    | alone _ hseparates _ _ => exact absurd hseparates (hrow operator List.mem_cons_self)

/-! ### Rows among other operators -/

theorem settings_addAll (q : Query σ) (operators : List (Operator σ)) :
    (q.addAll operators).settings = q.settings := by
  induction operators generalizing q with
  | nil => rfl
  | cons operator rest ih => exact (ih (q.add operator)).trans (q.settings_add operator)

theorem addAll_append (q : Query σ) (front back : List (Operator σ)) :
    q.addAll (front ++ back) = (q.addAll front).addAll back :=
  List.foldl_append

/-- What merges with nothing stays where it is. -/
theorem getElem?_addAll {place : Nat} {stage : Stage σ} (h : q.stages[place]? = some stage)
    (hstage : ∀ new, stage.fuse? new = none) (operators : List (Operator σ)) :
    (q.addAll operators).stages[place]? = some stage := by
  let behind : Query σ := { q with stages := q.stages.drop (place + 1) }
  have htake : q.stages.take (place + 1) = q.stages.take place ++ [stage] := by
    rw [List.take_add_one, h, Option.toList_some]
  have hclosed := closed_concat (q.stages.take place) hstage
  have hsettings : q.settings = behind.settings := rfl
  have hstages : q.stages = (q.stages.take place ++ [stage]) ++ behind.stages := by
    rw [← htake, List.take_append_drop]
  obtain ⟨hplace, _⟩ := List.getElem?_eq_some_iff.mp h
  have hlength : (q.stages.take place).length = place := List.length_take_of_le (by omega)
  rw [stages_addAll_of_closed hclosed hsettings hstages, List.append_assoc]
  rw [List.getElem?_append_right (by omega), hlength, Nat.sub_self]
  rfl

variable {empty : Query σ}

/-- After an operator that separates, or at the beginning, nothing merges. -/
theorem closed_addAll (hempty : empty.stages = []) {front : List (Operator σ)}
    (h : ∀ operator ∈ front.getLast?, operator.Separates) :
    Closed (empty.addAll front).stages := by
  rcases List.eq_nil_or_concat front with rfl | ⟨init, last, rfl⟩
  · intro new
    rw [addAll, List.foldl_nil, hempty]
    rfl
  · rw [List.concat_eq_append] at h ⊢
    obtain ⟨stage, halone, hstages, hadd⟩ := (h last List.getLast?_concat).alone
    rw [addAll_append]
    show Closed ((empty.addAll init).add last).stages
    rw [hadd, hstages]
    exact closed_concat _ halone.fuse?

theorem stages_addAll_append (hempty : empty.stages = []) {front : List (Operator σ)}
    (h : ∀ operator ∈ front.getLast?, operator.Separates) (back : List (Operator σ)) :
    (empty.addAll (front ++ back)).stages =
      (empty.addAll front).stages ++ (empty.addAll back).stages := by
  have hstages : (empty.addAll front).stages = (empty.addAll front).stages ++ empty.stages := by
    rw [hempty, List.append_nil]
  rw [addAll_append]
  exact stages_addAll_of_closed (closed_addAll hempty h) (settings_addAll empty front) hstages back

/-- An operator that separates stands between what is before it and what is behind. -/
theorem stages_addAll_separates (hempty : empty.stages = []) {operator : Operator σ}
    (h : operator.Separates) (past future : List (Operator σ)) :
    (empty.addAll (past ++ operator :: future)).stages =
      (empty.addAll past).stages ++ operator.stages ++ (empty.addAll future).stages := by
  have hlast : ∀ last ∈ (past ++ [operator]).getLast?, last.Separates := by
    intro last hmem
    rw [List.getLast?_concat] at hmem
    obtain rfl := Option.some.inj hmem
    exact h
  obtain ⟨_, _, _, hadd⟩ := h.alone
  rw [List.append_cons, stages_addAll_append hempty hlast, addAll_append]
  exact congrArg (· ++ _) (hadd _)

/-- **A row between operators that separate becomes pairs.** -/
theorem stages_addAll_row (hfuse : empty.settings.fuse = true) (hempty : empty.stages = [])
    {before row after : List (Operator σ)}
    (hbefore : ∀ operator ∈ before.getLast?, operator.Separates)
    (hrow : ∀ operator ∈ row, ¬ operator.Separates)
    (hafter : ∀ operator ∈ after.head?, operator.Separates) :
    (empty.addAll (before ++ row ++ after)).stages =
      (empty.addAll before).stages ++ inPairs (row.filterMap Operator.fusible?) ++
        (empty.addAll after).stages := by
  have hpairs : (empty.addAll (before ++ row)).stages =
      (empty.addAll before).stages ++ inPairs (row.filterMap Operator.fusible?) := by
    have hcalls : empty.stages = inPairs [] := hempty
    rw [stages_addAll_append hempty hbefore, stages_addAll_inPairs hfuse hcalls hrow,
      List.nil_append]
  cases after with
  | nil =>
    have hnil : (empty.addAll []).stages = [] := hempty
    rw [List.append_nil, hnil, List.append_nil, hpairs]
  | cons operator future =>
    have hoperator := hafter operator rfl
    have halone := stages_addAll_separates hempty hoperator [] future
    have hnil : (empty.addAll []).stages = [] := hempty
    rw [hnil, List.nil_append, List.nil_append] at halone
    rw [stages_addAll_separates hempty hoperator, hpairs, halone, List.append_assoc]

end Query

/-! ### Histories -/

namespace Event

/-- The event is a call of the query's own interface: an operator is added, or a question is
    put. -/
def IsCall : Event σ → Prop
  | .add _ => True
  | .run .. => True
  | _ => False

def operator? : Event σ → Option (Operator σ)
  | .add operator => some operator
  | _ => none

end Event

/-- The operators that are added in a history. -/
def operatorsOf (history : List (Event σ)) : List (Operator σ) :=
  history.filterMap Event.operator?

namespace Query

/-- Runs leave the query as its operators have built it. -/
theorem forget_replay_calls {history : List (Event σ)} (h : ∀ event ∈ history, event.IsCall)
    (q : Query σ) :
    (q.replay history).forget = q.forget.addAll (operatorsOf history) := by
  induction history generalizing q with
  | nil => rfl
  | cons event rest ih =>
    have hevent := h event List.mem_cons_self
    have hrest := ih (fun event hmem => h event (List.mem_cons_of_mem _ hmem)) (q.after event)
    cases event with
    | add operator =>
      rw [after, forget_add] at hrest
      exact hrest
    | run terminal world =>
      rw [after, forget_run] at hrest
      exact hrest
    | push stage => exact absurd hevent not_false
    | pushFusible new => exact absurd hevent not_false

theorem replay_unmerged {history : List (Event σ)} (h : ∀ event ∈ history, event.IsCall)
    (q : Query σ) : (q.replay history).unmerged = q.unmerged.replay history := by
  induction history generalizing q with
  | nil => rfl
  | cons event rest ih =>
    have hevent := h event List.mem_cons_self
    have hrest := ih (fun event hmem => h event (List.mem_cons_of_mem _ hmem)) (q.after event)
    cases event with
    | add operator =>
      rw [after, add_unmerged] at hrest
      exact hrest
    | run terminal world =>
      have hrun : q.unmerged.after (.run terminal world) = (q.run terminal world).query.unmerged :=
        congrArg Run.query (q.run_unmerged terminal world)
      show ((q.run terminal world).query.replay rest).unmerged =
        (q.unmerged.after (.run terminal world)).replay rest
      rw [hrun]
      exact hrest
    | push stage => exact absurd hevent not_false
    | pushFusible new => exact absurd hevent not_false

/-- How a query that merges has built its stages: a row of filters and maps has become pairs,
    any other operator keeps a stage of its own, and a pair that is there stays as it is. -/
structure MergesInPairs (empty : Query σ) (history : List (Event σ)) : Prop where
  row {before row after : List (Event σ)} : history = before ++ row ++ after →
    (∀ operator ∈ (operatorsOf before).getLast?, operator.Separates) →
    (∀ operator ∈ operatorsOf row, ¬ operator.Separates) →
    (∀ operator ∈ (operatorsOf after).head?, operator.Separates) →
    ∃ pairs, Paired ((operatorsOf row).filterMap Operator.fusible?) pairs ∧
      (empty.replay history).forget.stages =
        (empty.replay before).forget.stages ++ pairs ++ (empty.replay after).forget.stages
  alone {past future : List (Event σ)} {operator : Operator σ} :
    history = past ++ .add operator :: future → operator.Separates →
    (empty.replay history).forget.stages =
      (empty.replay past).forget.stages ++ operator.stages ++ (empty.replay future).forget.stages
  stays {past future : List (Event σ)} {place : Nat} {stage : Stage σ} :
    history = past ++ future → (empty.replay past).stages[place]? = some stage →
    stage.isFused = true → (empty.replay history).stages[place]? = some stage

theorem mergesInPairs_of_calls {empty : Query σ} (hfuse : empty.settings.fuse = true)
    (hempty : empty.stages = []) {history : List (Event σ)}
    (hcalls : ∀ event ∈ history, event.IsCall) : empty.MergesInPairs history := by
  have hmerges : empty.forget.settings.fuse = true := hfuse
  have hnew : empty.forget.stages = [] := congrArg (List.map Stage.reset) hempty
  have hbuilt : ∀ part : List (Event σ), (∀ event ∈ part, event ∈ history) →
      (empty.replay part).forget.stages = (empty.forget.addAll (operatorsOf part)).stages := by
    intro part hpart
    have hforget := empty.forget_replay_calls fun event hmem => hcalls event (hpart event hmem)
    exact congrArg Query.stages hforget
  have hall := hbuilt history fun _ hmem => hmem
  constructor
  case row =>
    intro before row after hsplit hbefore hrow hafter
    have hoperators : operatorsOf history =
        operatorsOf before ++ operatorsOf row ++ operatorsOf after := by
      simp only [hsplit, operatorsOf, List.filterMap_append]
    have hfront : ∀ event ∈ before, event ∈ history := by
      rw [hsplit, List.append_assoc]
      exact fun _ hmem => List.mem_append_left _ hmem
    have hback : ∀ event ∈ after, event ∈ history := by
      rw [hsplit]
      exact fun _ hmem => List.mem_append_right _ hmem
    refine ⟨_, paired_inPairs _, ?_⟩
    rw [hall, hoperators, stages_addAll_row hmerges hnew hbefore hrow hafter, hbuilt before hfront,
      hbuilt after hback]
  case alone =>
    intro past future operator hsplit hoperator
    have hoperators : operatorsOf history = operatorsOf past ++ operator :: operatorsOf future := by
      rw [hsplit, operatorsOf, List.filterMap_append]
      rfl
    have hfront : ∀ event ∈ past, event ∈ history := by
      rw [hsplit]
      exact fun _ hmem => List.mem_append_left _ hmem
    have hback : ∀ event ∈ future, event ∈ history := by
      rw [hsplit]
      exact fun _ hmem => List.mem_append_right _ (List.mem_cons_of_mem _ hmem)
    rw [hall, hoperators, stages_addAll_separates hnew hoperator, hbuilt past hfront,
      hbuilt future hback]
  case stays =>
    intro past future place stage hsplit hplace hfused
    have hoperators : operatorsOf history = operatorsOf past ++ operatorsOf future := by
      rw [hsplit, operatorsOf, List.filterMap_append]
      rfl
    have hfront : ∀ event ∈ past, event ∈ history := by
      rw [hsplit]
      exact fun _ hmem => List.mem_append_left _ hmem
    have hpast : (empty.forget.addAll (operatorsOf past)).stages[place]? = some stage := by
      rw [← hbuilt past hfront, forget, List.getElem?_map, hplace,
        Option.map_some, Stage.reset_of_isFused hfused]
    have hlater := getElem?_addAll hpast (Stage.fuse?_of_isFused hfused) (operatorsOf future)
    rw [← addAll_append, ← hoperators, ← hall, forget, List.getElem?_map] at hlater
    obtain ⟨left, hleft, hreset⟩ := Option.map_eq_some_iff.mp hlater
    have hsame : left.isFused = true := by rw [← left.isFused_reset, hreset, hfused]
    rw [hleft, ← hreset, Stage.reset_of_isFused hsame]

/-- **Merging pairs neighbours off and loses nothing.**  A query that is built by operators,
    with questions in between, has its stages in pairs; taken apart, they are the stages that
    are built without merging. -/
theorem merging_pairs_neighbours (source : List Value) (bulk : Bool) {history : List (Event σ)}
    (hcalls : ∀ event ∈ history, event.IsCall) :
    let merging : Query σ := ofSource source { fuse := true, bulk }
    let plain : Query σ := ofSource source { fuse := false, bulk }
    (merging.replay history).stages.flatMap Stage.split = (plain.replay history).stages ∧
      merging.MergesInPairs history := by
  intro merging plain
  constructor
  · exact congrArg Query.stages (replay_unmerged hcalls merging)
  · exact mergesInPairs_of_calls rfl rfl hcalls

/-- A run, and a slice that keeps everything, between two calls that merge. -/
theorem merging_pairs_neighbours_three :
    let keep : Predicate Unit := fun _ => return true
    let history : List (Event Unit) :=
      [.add (.filter keep), .run Question.length.start ⟨0, ()⟩, .add (.slice 0 none),
        .add (.map fun v => return v), .add (.filter keep), .add (.reject keep)]
    let merging : Query Unit := ofSource [.null] { fuse := true, bulk := true }
    (∀ event ∈ history, event.IsCall) ∧
      (merging.replay history).plan = ["filter+map", "filter", "reject"] ∧
      merging.MergesInPairs history := by
  intro keep history merging
  have hcalls : ∀ event ∈ history, event.IsCall := by
    intro event hmem
    simp only [history, List.mem_cons, List.not_mem_nil, or_false] at hmem
    rcases hmem with rfl | rfl | rfl | rfl | rfl | rfl <;> trivial
  exact ⟨hcalls, rfl, (merging_pairs_neighbours [.null] true hcalls).2⟩

end Query

end FusedQuery
