/-
  FusedQuery/Proofs/Recording/Faithful.lean
  =========================================
  **Recording the calls of a run does not disturb it.**

  A query whose callbacks record their calls mirrors the one whose callbacks do not, however
  the two are built (`addAll_mirrors`, `replay_mirrors`), and their runs come to the same but
  for the record (`Mirrors.run`).  So the calls that `Query.callsOf` and `Query.callsAfter` read
  off a recorded run are the calls of the run itself (`run_recorded`, `run_replay_recorded`).
-/
import FusedQuery.Proofs.History.Forget
import FusedQuery.Proofs.Recording.Mirror

namespace FusedQuery

variable {σ ρ : Type}

/-! ### Recorded callbacks mirror the plain ones -/

namespace Stage

theorem mirrors_recorded (place : Nat) (stage : Stage σ) :
    (stage.recorded place).Mirrors stage := by
  have hcallback : ∀ {α : Type} (late : Bool) (callback : Value → Act σ α),
      CallbackMirrors (recordedCallback place late callback) callback :=
    fun late callback => mirrors_recordedCallback place late callback
  cases stage with
  | first test? =>
    cases test? with
    | none => exact .first
    | some test => exact .firstWhere (hcallback false test)
  | uniq eq? seen =>
    cases eq? with
    | none => exact .uniq seen
    | some eq =>
      apply Mirrors.uniqBy seen
      intro earlier item
      exact Act.mirrors_recorded _ _
  | _ => constructor <;> apply hcallback

/-- Stages that mirror each other merge alike. -/
theorem fuse?_mirrors {recording : Stage (Recorded σ)} {stage : Stage σ}
    (h : recording.Mirrors stage) (place : Nat) (new : Fusible σ) :
    Option.Rel Mirrors (recording.fuse? (new.recorded place)) (stage.fuse? new) := by
  cases h with
  | filter htest =>
    cases new with
    | filter late => exact .some (.filterFilter htest (mirrors_recordedCallback place false late))
    | map change => exact .some (.filterMap htest (mirrors_recordedCallback place false change))
  | map hchange =>
    cases new with
    | filter test => exact .some (.mapFilter hchange (mirrors_recordedCallback place false test))
    | map late => exact .some (.mapMap hchange (mirrors_recordedCallback place false late))
  | _ => cases new <;> exact .none

theorem mirrors_stage_recorded (place : Nat) (new : Fusible σ) :
    (new.recorded place).stage.Mirrors new.stage := by
  cases new with
  | filter test => exact .filter (mirrors_recordedCallback place false test)
  | map change => exact .map (mirrors_recordedCallback place false change)

end Stage

namespace Terminal

/-- Calling a recorded function value mirrors calling it. -/
theorem mirrors_call (place : Nat) (host : Host σ) (method? : Option String) :
    CallbackMirrors (call (recordedHost place host) method?) (call host method?) := by
  intro item
  simp only [call]
  split
  · next ref _ => exact (Act.mirrors_recorded _ (host ref [])).map _
  · exact Act.mirrors_ofExcept _

theorem mirrors_recorded (place : Nat) (terminal : Terminal σ ρ) :
    (terminal.recorded place).Mirrors terminal := by
  have hcallback : ∀ {α : Type} (callback : Value → Act σ α),
      CallbackMirrors (recordedCallback place false callback) callback :=
    fun callback => mirrors_recordedCallback place false callback
  have htarget : ∀ target : Target σ, (target.recorded place).Mirrors target := by
    intro target
    cases target with
    | value wanted =>
      intro item
      exact Act.mirrors_ofExcept (.ok (item.same wanted))
    | field name wanted =>
      intro item
      exact Act.mirrors_ofExcept (.ok ((item.get name).same wanted))
    | test holds => exact hcallback holds
  cases terminal with
  | collect items => exact .collect items
  | head item? => exact .head item?
  | each visit => exact .each (hcallback visit)
  | count test counts => exact .count counts (hcallback test)
  | length n => exact .length n
  | contains target found => exact .contains found (htarget target)
  | every test passed => exact .every passed (hcallback test)
  | indexOf target pos found? => exact .indexOf pos found? (htarget target)
  | groupBy key groups => exact .groupBy groups (hcallback key)
  | extremum rank pick best? => exact .extremum pick best? (hcallback rank)
  | reduce fold acc? => exact .reduce acc? fun v w => Act.mirrors_recorded _ (fold v w)
  | invoke host method? => exact .invoke method? (mirrors_call place host method?)

/-! ### Scans -/

structure Scan.Mirrors (recording : Scan (Recorded σ) ρ) (scan : Scan σ ρ) : Prop where
  visited : recording.visited = scan.visited
  terminal : recording.terminal.Mirrors scan.terminal
  world : recording.world.plain = scan.world

theorem firstPosition?_mirrors {recording : Target (Recorded σ)} {target : Target σ}
    (h : recording.Mirrors target) (pos : Nat) (source : List Value) :
    (firstPosition? recording pos source).Mirrors (firstPosition? target pos source) := by
  induction source generalizing pos with
  | nil => exact Act.mirrors_ofExcept (.ok none)
  | cons item rest ih =>
    apply (h item).bind
    intro found
    cases found with
    | true => exact Act.mirrors_ofExcept (.ok (some pos))
    | false => exact ih (pos + 1)

theorem callAll_mirrors {recording : Host (Recorded σ)} {host : Host σ} {method? : Option String}
    (h : CallbackMirrors (call recording method?) (call host method?)) (source : List Value) :
    (callAll recording method? source).Mirrors (callAll host method? source) := by
  induction source with
  | nil => exact Act.mirrors_ofExcept (.ok ())
  | cons item rest ih =>
    apply (h item).bind
    intro _
    exact ih

/-- Terminals that mirror each other scan alike, if they scan. -/
theorem scan?_mirrors {recording : Terminal (Recorded σ) ρ} {terminal : Terminal σ ρ}
    (h : recording.Mirrors terminal) :
    Option.Rel (fun recScan scan => ∀ source (w : World (Recorded σ)),
        (recScan source w).Mirrors (scan source w.plain)) recording.scan? terminal.scan? := by
  cases h with
  | collect items =>
    apply Option.Rel.some
    intro source w
    exact ⟨rfl, .collect _, rfl⟩
  | indexOf pos found? htarget =>
    apply Option.Rel.some
    intro source w
    have hfind := firstPosition?_mirrors htarget 0 source
    have hresult := hfind.result w
    have hworld := hfind.world w
    simp only [hresult]
    split
    · exact ⟨rfl, .indexOf _ _ htarget, hworld⟩
    · exact ⟨rfl, .indexOf _ _ htarget, hworld⟩
    · exact ⟨rfl, .indexOf _ _ htarget, hworld⟩
  | invoke method? hcall =>
    apply Option.Rel.some
    intro source w
    have hcalls := callAll_mirrors hcall source
    have hresult := hcalls.result w
    have hworld := hcalls.world w
    simp only [hresult]
    split
    · exact ⟨rfl, .invoke _ hcall, hworld⟩
    · exact ⟨rfl, .invoke _ hcall, hworld⟩
  | _ => exact .none

end Terminal

/-! ### Related lists and options -/

theorem isSome_of_rel {α β : Type 1} {R : α → β → Prop} {x? : Option α} {y? : Option β}
    (h : Option.Rel R x? y?) : x?.isSome = y?.isSome := by
  cases h <;> rfl

/-- Every element of a list in its place is related to the element itself. -/
theorem forall₂_mapIdx {α β : Type*} {R : β → α → Prop} {f : Nat → α → β}
    (h : ∀ i x, R (f i x) x) (xs : List α) : List.Forall₂ R (xs.mapIdx f) xs := by
  induction xs generalizing f with
  | nil => exact .nil
  | cons x xs ih =>
    rw [List.mapIdx_cons]
    apply List.Forall₂.cons (h 0 x)
    apply ih
    intro i y
    exact h (i + 1) y

/-- Two related lists end alike. -/
theorem forall₂_concat_right {α β : Type} {R : α → β → Prop} {xs : List α} {ys : List β} {y : β}
    (h : List.Forall₂ R xs (ys ++ [y])) :
    ∃ front last, xs = front ++ [last] ∧ List.Forall₂ R front ys ∧ R last y := by
  have hfront := List.forall₂_take_append xs ys [y] h
  have hback := List.forall₂_drop_append xs ys [y] h
  cases hdrop : xs.drop ys.length with
  | nil => rw [hdrop] at hback; cases hback
  | cons last rest =>
    rw [hdrop] at hback
    rcases hback with _ | ⟨hlast, hrest⟩
    cases hrest
    refine ⟨xs.take ys.length, last, ?_, hfront, hlast⟩
    rw [← hdrop, List.take_append_drop]

theorem any_canStop_mirrors {recStages : List (Stage (Recorded σ))} {stages : List (Stage σ)}
    (h : List.Forall₂ Stage.Mirrors recStages stages) :
    recStages.any Stage.canStop = stages.any Stage.canStop := by
  induction h with
  | nil => rfl
  | cons hstage hrest ih => rw [List.any_cons, List.any_cons, hstage.canStop, ih]

theorem countP_isFused_mirrors {recStages : List (Stage (Recorded σ))} {stages : List (Stage σ)}
    (h : List.Forall₂ Stage.Mirrors recStages stages) :
    recStages.countP Stage.isFused = stages.countP Stage.isFused := by
  induction h with
  | nil => rfl
  | cons hstage hrest ih => rw [List.countP_cons, List.countP_cons, hstage.isFused, ih]

namespace Query

/-- The queries are alike but for the record. -/
structure Mirrors (recording : Query (Recorded σ)) (q : Query σ) : Prop where
  source : recording.source = q.source
  stages : List.Forall₂ Stage.Mirrors recording.stages q.stages
  control : recording.control = q.control
  settings : recording.settings = q.settings
  stats : recording.stats = q.stats

theorem mirrors_ofSource (source : List Value) (settings : Settings) :
    (ofSource source settings : Query (Recorded σ)).Mirrors (ofSource source settings) := by
  constructor
  case stages => exact .nil
  all_goals rfl

variable {recording : Query (Recorded σ)} {q : Query σ}

/-! ### Building -/

theorem Mirrors.withStages (h : recording.Mirrors q) {recStages : List (Stage (Recorded σ))}
    {stages : List (Stage σ)} (hstages : List.Forall₂ Stage.Mirrors recStages stages) :
    ({ recording with stages := recStages } : Query (Recorded σ)).Mirrors { q with stages } where
  source := h.source
  stages := hstages
  control := h.control
  settings := h.settings
  stats := h.stats

theorem Mirrors.push (h : recording.Mirrors q) {recStage : Stage (Recorded σ)} {stage : Stage σ}
    (hstage : recStage.Mirrors stage) : (recording.push recStage).Mirrors (q.push stage) :=
  h.withStages (List.rel_append h.stages (.cons hstage .nil))

theorem Mirrors.pushFusible (h : recording.Mirrors q) (place : Nat) (new : Fusible σ) :
    (recording.pushFusible (new.recorded place)).Mirrors (q.pushFusible new) := by
  have halone := h.push (Stage.mirrors_stage_recorded place new)
  have hsettings := congrArg Settings.fuse h.settings
  simp only [Query.pushFusible]
  cases hfuses : q.settings.fuse with
  | false =>
    rw [hfuses] at hsettings
    simp only [hsettings, Bool.false_eq_true, ↓reduceIte]
    exact halone
  | true =>
    rw [hfuses] at hsettings
    rcases List.eq_nil_or_concat q.stages with hnil | ⟨ys, y, hys⟩
    · have hempty := h.stages
      rw [hnil] at hempty
      simp only [hsettings, hnil, List.forall₂_nil_right_iff.mp hempty]
      exact halone
    · have hstages := h.stages
      rw [hys, List.concat_eq_append] at hstages
      obtain ⟨xs, x, hxs, hfront, hlast⟩ := forall₂_concat_right hstages
      have hfuse := Stage.fuse?_mirrors hlast place new
      simp only [hsettings, hxs, hys, ↓reduceIte, List.concat_eq_append, List.getLast?_concat,
        Option.bind_some, List.dropLast_concat]
      generalize x.fuse? (new.recorded place) = recMerged? at hfuse
      generalize y.fuse? new = merged? at hfuse
      cases hfuse with
      | none => exact halone
      | some hmerged => exact h.withStages (List.rel_append hfront (.cons hmerged .nil))

theorem Mirrors.add (h : recording.Mirrors q) (place : Nat) (operator : Operator σ) :
    (recording.add (operator.recorded place)).Mirrors (q.add operator) := by
  have hcallback : ∀ callback : Predicate σ,
      CallbackMirrors (recordedCallback place false callback) callback :=
    fun callback => mirrors_recordedCallback place false callback
  cases operator with
  | filter test => exact h.pushFusible place (.filter test)
  | map change => exact h.pushFusible place (.map change)
  | reject test => exact h.push (.reject (hcallback test))
  | filterBy field value => exact h.push (.filterBy field value)
  | zip other => exact h.push (.zip other 0)
  | skip n => exact h.push (.skip n)
  | slice start end? =>
    simp only [Operator.recorded, Query.add, addSlice]
    split
    · exact h.push .halt
    · split
      · exact h
      · exact h.push (.slice _ _ 0)
  | first => exact h.push .first
  | firstWhere test => exact h.push (.firstWhere (hcallback test))
  | take n => exact h.push (.take n 0)
  | get n =>
    simp only [Operator.recorded, Query.add, addGet]
    split
    · exact h.push .halt
    · split
      · exact h.push .first
      · exact h.push (.get _ 0)
  | ofClass name => exact h.push (.ofClass name)
  | ofKind kind => exact h.push (.ofKind kind)
  | uniq => exact h.push (.uniq {})
  | uniqBy eq =>
    apply h.push
    apply Stage.Mirrors.uniqBy {}
    intro earlier item
    exact Act.mirrors_recorded _ _

/-! ### Running -/

variable {recTerminal : Terminal (Recorded σ) ρ} {terminal : Terminal σ ρ}

theorem Mirrors.prepare (h : recording.Mirrors q) (hterminal : recTerminal.Mirrors terminal) :
    (recording.prepare recTerminal).Mirrors (q.prepare terminal) where
  source := h.source
  stages := List.rel_map (fun _ _ hstage => hstage.reset) h.stages
  control := by
    simp only [Query.prepare, h.control, hterminal.canStop, any_canStop_mirrors h.stages]
  settings := h.settings
  stats := h.stats

theorem Mirrors.isEmpty_stages (h : recording.Mirrors q) :
    recording.stages.isEmpty = q.stages.isEmpty := by
  rw [Bool.eq_iff_iff, List.isEmpty_iff_length_eq_zero, List.isEmpty_iff_length_eq_zero,
    h.stages.length_eq]

theorem Mirrors.scan? (h : recording.Mirrors q) (hterminal : recTerminal.Mirrors terminal) :
    Option.Rel (fun recScan scan => ∀ source (w : World (Recorded σ)),
        (recScan source w).Mirrors (scan source w.plain))
      (recording.scan? recTerminal) (q.scan? terminal) := by
  simp only [Query.scan?, h.settings, h.isEmpty_stages]
  split
  · exact Terminal.scan?_mirrors hterminal
  · exact .none

theorem Mirrors.traverse (h : recording.Mirrors q) (hterminal : recTerminal.Mirrors terminal)
    (w : World (Recorded σ)) :
    ((recording.prepare recTerminal).traverse recTerminal w).Mirrors
      ((q.prepare terminal).traverse terminal w.plain) := by
  have hready := h.prepare hterminal
  have hscan := hready.scan? hterminal
  cases hrec : (recording.prepare recTerminal).scan? recTerminal with
  | none =>
    cases hplain : (q.prepare terminal).scan? terminal with
    | some scan => rw [hrec, hplain] at hscan; cases hscan
    | none =>
      rw [traverse_prepare hrec, traverse_prepare hplain, h.source]
      exact Line.drainUntilStop_mirrors ⟨hready.stages, hready.control, hterminal, rfl⟩ 0 q.source
  | some recScan =>
    cases hplain : (q.prepare terminal).scan? terminal with
    | none => rw [hrec, hplain] at hscan; cases hscan
    | some scan =>
      rw [hrec, hplain] at hscan
      cases hscan with
      | some hscans =>
        obtain ⟨hvisited, hend, hworld⟩ := hscans q.source w
        rw [traverse_of_scan hrec, traverse_of_scan hplain, hready.source]
        exact ⟨hvisited, hready.stages, hready.control, hend, hworld⟩

end Query

/-- The runs are alike but for the record. -/
structure Run.Mirrors (recording : Run (Recorded σ) ρ) (r : Run σ ρ) : Prop where
  result : recording.result = r.result
  query : recording.query.Mirrors r.query
  world : recording.world.plain = r.world

namespace Query

variable {recording : Query (Recorded σ)} {q : Query σ}
variable {recTerminal : Terminal (Recorded σ) ρ} {terminal : Terminal σ ρ}

/-- **A query that records runs as the query that does not.** -/
theorem Mirrors.run (h : recording.Mirrors q) (hterminal : recTerminal.Mirrors terminal)
    (w : World (Recorded σ)) :
    (recording.run recTerminal w).Mirrors (q.run terminal w.plain) := by
  have hready := h.prepare hterminal
  obtain ⟨hvisited, hstages, hcontrol, hend, hworld⟩ := h.traverse hterminal w
  have hscan : ((recording.prepare recTerminal).scan? recTerminal).isSome =
      ((q.prepare terminal).scan? terminal).isSome := isSome_of_rel (hready.scan? hterminal)
  simp only [Query.run, hvisited]
  cases ((q.prepare terminal).traverse terminal w.plain).visited with
  | error fault => exact ⟨rfl, ⟨h.source, hstages, hcontrol, h.settings, h.stats⟩, hworld⟩
  | ok visited =>
    refine ⟨hend.finish, ⟨h.source, hstages, hcontrol, h.settings, ?_⟩, hworld⟩
    simp only [hscan, hstages.length_eq, countP_isFused_mirrors hstages, h.source]

/-! ### Queries built by operators, and by histories -/

/-- Operators that record their calls, each under any place. -/
theorem addAll_mirrors_of_forall₂ (source : List Value) (settings : Settings)
    {recorded : List (Operator (Recorded σ))} {operators : List (Operator σ)}
    (h : List.Forall₂ (fun rec operator => ∃ place, rec = operator.recorded place)
      recorded operators) :
    ((ofSource source settings).addAll recorded).Mirrors
      ((ofSource source settings).addAll operators) := by
  apply List.rel_foldl _ (mirrors_ofSource source settings) h
  rintro recording q hquery _ operator ⟨place, rfl⟩
  exact hquery.add place operator

theorem addAll_mirrors (source : List Value) (settings : Settings)
    (operators : List (Operator σ)) :
    ((ofSource source settings).addAll (operators.mapIdx Operator.recorded)).Mirrors
      ((ofSource source settings).addAll operators) := by
  apply addAll_mirrors_of_forall₂
  apply forall₂_mapIdx
  intro place operator
  exact ⟨place, rfl⟩

theorem Mirrors.after (h : recording.Mirrors q) (place : Nat) (event : Event σ) :
    (recording.after (event.recorded place)).Mirrors (q.after event) := by
  cases event with
  | add operator => exact h.add place operator
  | push stage => exact h.push (Stage.mirrors_recorded place stage)
  | pushFusible new => exact h.pushFusible place new
  | run terminal w => exact (h.run (Terminal.mirrors_recorded place terminal) w.recorded).query

theorem replay_mirrors (source : List Value) (settings : Settings) (history : List (Event σ)) :
    ((ofSource source settings).replay (history.mapIdx Event.recorded)).Mirrors
      ((ofSource source settings).replay history) := by
  apply List.rel_foldl (R := fun rec event => ∃ place, rec = event.recorded place) _
    (mirrors_ofSource source settings)
  · apply forall₂_mapIdx
    intro place event
    exact ⟨place, rfl⟩
  · rintro recording q h _ event ⟨place, rfl⟩
    exact h.after place event

/-- **The calls on record are the calls of the run.**  Whether calls are recorded makes no
    difference to what a run comes to. -/
theorem run_recorded (source : List Value) (settings : Settings) (operators : List (Operator σ))
    (terminal : Terminal σ ρ) (w : World σ) :
    (((ofSource source settings).addAll (operators.mapIdx Operator.recorded)).run
        (terminal.recorded operators.length) w.recorded).Mirrors
      (((ofSource source settings).addAll operators).run terminal w) :=
  (addAll_mirrors source settings operators).run
    (Terminal.mirrors_recorded operators.length terminal) w.recorded

/-- The same after any history. -/
theorem run_replay_recorded (source : List Value) (settings : Settings)
    (history : List (Event σ)) (terminal : Terminal σ ρ) (w : World σ) :
    (((ofSource source settings).replay (history.mapIdx Event.recorded)).run
        (terminal.recorded history.length) w.recorded).Mirrors
      (((ofSource source settings).replay history).run terminal w) :=
  (replay_mirrors source settings history).run
    (Terminal.mirrors_recorded history.length terminal) w.recorded

end Query

end FusedQuery
