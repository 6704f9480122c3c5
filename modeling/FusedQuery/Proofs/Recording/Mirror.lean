/-
  FusedQuery/Proofs/Recording/Mirror.lean
  =======================================
  **A record of calls is kept beside the state, and nothing looks at it.**

  An act that records mirrors the act that does not: with the record left out, it comes back
  with the same (`Act.Mirrors`).  Stages and terminals mirror each other if their acts do, and
  what they do to an element they do in the same way (`step_mirrors`, `accept_mirrors`); so a
  line that records goes through a source as the line that does not
  (`drainUntilStop_mirrors`).
-/
import FusedQuery.Line
import FusedQuery.Proofs.Recording.Basic
import Mathlib.Data.List.Forall2

namespace FusedQuery

variable {σ ρ α β : Type}

/-! ### Acts -/

/-- What an act comes back with, without the record. -/
def Reply.plain (r : Reply (Recorded σ) α) : Reply σ α := ⟨r.result, r.world.plain⟩

namespace Act

/-- But for the record, the first act does what the second does. -/
def Mirrors (recording : Act (Recorded σ) α) (act : Act σ α) : Prop :=
  ∀ w, (recording.run w).plain = act.run w.plain

theorem mirrors_recorded (call : Call) (act : Act σ α) : (act.recorded call).Mirrors act := by
  intro w
  rfl

theorem mirrors_ofExcept (result : Except Fault α) :
    (ofExcept result : Act (Recorded σ) α).Mirrors (ofExcept result) := by
  intro w
  rfl

theorem mirrors_newList (items : List Value) :
    (newList items : Act (Recorded σ) Value).Mirrors (newList items) := by
  intro w
  rfl

theorem Mirrors.bind {recording : Act (Recorded σ) α} {act : Act σ α}
    {recordingNext : α → Act (Recorded σ) β} {next : α → Act σ β} (h : recording.Mirrors act)
    (hnext : ∀ a, (recordingNext a).Mirrors (next a)) :
    (recording >>= recordingNext).Mirrors (act >>= next) := by
  intro w
  rw [run_bind, run_bind, ← h w]
  simp only [Reply.plain]
  rcases (recording.run w).result with fault | a
  · rfl
  · exact hnext a (recording.run w).world

/-- An act followed by nothing but an answer. -/
theorem Mirrors.map {recording : Act (Recorded σ) α} {act : Act σ α} (h : recording.Mirrors act)
    (f : α → β) : (do return f (← recording)).Mirrors (do return f (← act)) := by
  apply h.bind
  intro a
  exact mirrors_ofExcept (.ok (f a))

theorem Mirrors.result {recording : Act (Recorded σ) α} {act : Act σ α}
    (h : recording.Mirrors act) (w : World (Recorded σ)) :
    (recording.run w).result = (act.run w.plain).result :=
  congrArg Reply.result (h w)

theorem Mirrors.world {recording : Act (Recorded σ) α} {act : Act σ α}
    (h : recording.Mirrors act) (w : World (Recorded σ)) :
    (recording.run w).world.plain = (act.run w.plain).world :=
  congrArg Reply.world (h w)

end Act

/-- But for the record, the first callback does what the second does, whatever its argument. -/
abbrev CallbackMirrors (recording : Value → Act (Recorded σ) α) (callback : Value → Act σ α) :
    Prop :=
  ∀ v, (recording v).Mirrors (callback v)

theorem mirrors_recordedCallback (place : Nat) (late : Bool) (callback : Value → Act σ α) :
    CallbackMirrors (recordedCallback place late callback) callback := by
  intro v
  exact Act.mirrors_recorded _ _

/-! ### Stages -/

namespace Stage

/-- The stages are of one kind, have learnt the same, and have callbacks that mirror. -/
inductive Mirrors : Stage (Recorded σ) → Stage σ → Prop
  | filter {rec test} : CallbackMirrors rec test → Mirrors (.filter rec) (.filter test)
  | reject {rec test} : CallbackMirrors rec test → Mirrors (.reject rec) (.reject test)
  | filterBy (field value) : Mirrors (.filterBy field value) (.filterBy field value)
  | map {rec change} : CallbackMirrors rec change → Mirrors (.map rec) (.map change)
  | filterFilter {rec test rec' test'} : CallbackMirrors rec test → CallbackMirrors rec' test' →
      Mirrors (.filterFilter rec rec') (.filterFilter test test')
  | filterMap {rec test rec' change} : CallbackMirrors rec test → CallbackMirrors rec' change →
      Mirrors (.filterMap rec rec') (.filterMap test change)
  | mapFilter {rec change rec' test} : CallbackMirrors rec change → CallbackMirrors rec' test →
      Mirrors (.mapFilter rec rec') (.mapFilter change test)
  | mapMap {rec change rec' change'} : CallbackMirrors rec change →
      CallbackMirrors rec' change' → Mirrors (.mapMap rec rec') (.mapMap change change')
  | zip (other pos) : Mirrors (.zip other pos) (.zip other pos)
  | skip (count) : Mirrors (.skip count) (.skip count)
  | slice (start bound pos) : Mirrors (.slice start bound pos) (.slice start bound pos)
  | first : Mirrors (.first none) (.first none)
  | firstWhere {rec test} : CallbackMirrors rec test →
      Mirrors (.first (some rec)) (.first (some test))
  | take (limit taken) : Mirrors (.take limit taken) (.take limit taken)
  | get (index pos) : Mirrors (.get index pos) (.get index pos)
  | ofClass (name) : Mirrors (.ofClass name) (.ofClass name)
  | ofKind (kind) : Mirrors (.ofKind kind) (.ofKind kind)
  | uniq (seen) : Mirrors (.uniq none seen) (.uniq none seen)
  | uniqBy {rec eq} (seen) : (∀ v w, (rec v w).Mirrors (eq v w)) →
      Mirrors (.uniq (some rec) seen) (.uniq (some eq) seen)
  | halt : Mirrors .halt .halt

theorem Mirrors.reset {recording : Stage (Recorded σ)} {stage : Stage σ}
    (h : recording.Mirrors stage) : recording.reset.Mirrors stage.reset := by
  cases h <;> constructor <;> assumption

theorem Mirrors.canStop {recording : Stage (Recorded σ)} {stage : Stage σ}
    (h : recording.Mirrors stage) : recording.canStop = stage.canStop := by
  cases h <;> rfl

theorem Mirrors.isFused {recording : Stage (Recorded σ)} {stage : Stage σ}
    (h : recording.Mirrors stage) : recording.isFused = stage.isFused := by
  cases h <;> rfl

/-- The steps have the same outcome, but for the record. -/
structure Step.Mirrors (recording : Step (Recorded σ)) (s : Step σ) : Prop where
  flow : recording.flow = s.flow
  stage : recording.stage.Mirrors s.stage
  control : recording.control = s.control
  world : recording.world.plain = s.world

theorem ofAct_mirrors {recording : Stage (Recorded σ)} {stage : Stage σ}
    (h : recording.Mirrors stage) (control : Control) {recordingAct : Act (Recorded σ) Flow}
    {act : Act σ Flow} (hact : recordingAct.Mirrors act) (w : World (Recorded σ)) :
    (Step.ofAct recording control recordingAct w).Mirrors
      (Step.ofAct stage control act w.plain) := by
  constructor
  case flow => exact hact.result w
  case stage => exact h
  case control => rfl
  case world => exact hact.world w

theorem mirrors_repeatsIn {recEq? : Option (Equality (Recorded σ))} {eq? : Option (Equality σ)}
    (h : ∀ v w, (Seen.repeats recEq? v w).Mirrors (Seen.repeats eq? v w)) (item : Value)
    (refs : List Value) :
    (Seen.repeatsIn recEq? item refs).Mirrors (Seen.repeatsIn eq? item refs) := by
  induction refs with
  | nil => exact Act.mirrors_ofExcept (.ok false)
  | cons earlier rest ih =>
    apply (h earlier item).bind
    intro found
    cases found with
    | true => exact Act.mirrors_ofExcept (.ok true)
    | false => exact ih

/-- A step that leaves the world alone. -/
theorem mirrors_of_flow {recording : Stage (Recorded σ)} {stage : Stage σ}
    (h : recording.Mirrors stage) (flow : Flow) (control : Control) (w : World (Recorded σ)) :
    Step.Mirrors ⟨.ok flow, recording, control, w⟩ ⟨.ok flow, stage, control, w.plain⟩ := by
  constructor
  case flow => rfl
  case stage => exact h
  case control => rfl
  case world => rfl

theorem uniq_mirrors {recEq? : Option (Equality (Recorded σ))} {eq? : Option (Equality σ)}
    (h : ∀ v w, (Seen.repeats recEq? v w).Mirrors (Seen.repeats eq? v w))
    (hstage : ∀ seen, (Stage.uniq recEq? seen).Mirrors (.uniq eq? seen)) (seen : Seen)
    (control : Control) (item : Value) (w : World (Recorded σ)) :
    ((Stage.uniq recEq? seen).step control item w).Mirrors
      ((Stage.uniq eq? seen).step control item w.plain) := by
  cases hkey : Key.ofValue? item with
  | some key =>
    by_cases hmem : key ∈ seen.keys
    · simp only [step, hkey, if_pos hmem]
      exact mirrors_of_flow (hstage seen) _ _ w
    · simp only [step, hkey, if_neg hmem]
      exact mirrors_of_flow (hstage (seen.addKey key)) _ _ w
  | none =>
    have hrepeats := mirrors_repeatsIn h item seen.refs
    have hresult := hrepeats.result w
    have hworld := hrepeats.world w
    simp only [step, hkey, hresult]
    rcases ((Seen.repeatsIn eq? item seen.refs).run w.plain).result with fault | found
    · exact ⟨rfl, hstage seen, rfl, hworld⟩
    · cases found with
      | true => exact ⟨rfl, hstage seen, rfl, hworld⟩
      | false => exact ⟨rfl, hstage (seen.addRef item), rfl, hworld⟩

/-- **Stages that mirror each other step alike.** -/
theorem step_mirrors {recording : Stage (Recorded σ)} {stage : Stage σ}
    (h : recording.Mirrors stage) (control : Control) (item : Value) (w : World (Recorded σ)) :
    (recording.step control item w).Mirrors (stage.step control item w.plain) := by
  have hstage := h
  cases h with
  | filter htest => exact ofAct_mirrors hstage control ((htest item).map _) w
  | reject htest => exact ofAct_mirrors hstage control ((htest item).map _) w
  | map hchange => exact ofAct_mirrors hstage control ((hchange item).map _) w
  | filterBy field value => exact mirrors_of_flow hstage _ _ w
  | ofClass name => exact mirrors_of_flow hstage _ _ w
  | ofKind kind => exact mirrors_of_flow hstage _ _ w
  | first => exact mirrors_of_flow hstage _ _ w
  | halt => exact mirrors_of_flow hstage _ _ w
  | filterFilter hearly hlate =>
    apply ofAct_mirrors hstage control _ w
    apply (hearly item).bind
    intro passed
    cases passed with
    | true => exact (hlate item).map _
    | false => exact Act.mirrors_ofExcept (.ok Flow.drop)
  | filterMap htest hchange =>
    apply ofAct_mirrors hstage control _ w
    apply (htest item).bind
    intro passed
    cases passed with
    | true => exact (hchange item).map _
    | false => exact Act.mirrors_ofExcept (.ok Flow.drop)
  | mapFilter hchange htest =>
    apply ofAct_mirrors hstage control _ w
    apply (hchange item).bind
    intro changed
    exact (htest changed).map _
  | mapMap hearly hlate =>
    apply ofAct_mirrors hstage control _ w
    apply (hearly item).bind
    intro changed
    exact (hlate changed).map _
  | zip other pos =>
    exact ofAct_mirrors (.zip other (pos + 1)) control ((Act.mirrors_newList _).map _) w
  | skip count =>
    by_cases hskip : control.skipped < count
    · simp only [step, if_pos hskip]
      exact mirrors_of_flow hstage _ _ w
    · simp only [step, if_neg hskip]
      exact mirrors_of_flow hstage _ _ w
  | slice start bound pos =>
    by_cases hbound : bound ≤ pos
    · simp only [step, if_pos hbound]
      exact mirrors_of_flow (.slice start bound (pos + 1)) _ _ w
    · simp only [step, if_neg hbound]
      exact mirrors_of_flow (.slice start bound (pos + 1)) _ _ w
  | take limit taken =>
    by_cases hlimit : limit ≤ taken
    · simp only [step, if_pos hlimit]
      exact mirrors_of_flow hstage _ _ w
    · simp only [step, if_neg hlimit]
      exact mirrors_of_flow (.take limit (taken + 1)) _ _ w
  | get index pos =>
    by_cases hindex : pos = index
    · simp only [step, if_pos hindex]
      exact mirrors_of_flow (.get index (pos + 1)) _ _ w
    · simp only [step, if_neg hindex]
      exact mirrors_of_flow (.get index (pos + 1)) _ _ w
  | @firstWhere rec test htest =>
    have hresult := (htest item).result w
    have hworld := (htest item).world w
    simp only [step, hresult]
    rcases ((test item).run w.plain).result with fault | passed
    · exact ⟨rfl, hstage, rfl, hworld⟩
    · cases passed with
      | true => exact ⟨rfl, hstage, rfl, hworld⟩
      | false => exact ⟨rfl, hstage, rfl, hworld⟩
  | uniq seen =>
    apply uniq_mirrors _ .uniq
    intro earlier item
    exact Act.mirrors_ofExcept (.ok (earlier.same item))
  | uniqBy seen heq =>
    apply uniq_mirrors _ fun seen => .uniqBy seen heq
    exact heq

end Stage

/-! ### Terminals -/

/-- The targets look for the same. -/
def Target.Mirrors (recording : Target (Recorded σ)) (target : Target σ) : Prop :=
  CallbackMirrors recording.holds target.holds

namespace Terminal

/-- The terminals are of one kind, have gathered the same, and have callbacks that mirror. -/
inductive Mirrors : {ρ : Type} → Terminal (Recorded σ) ρ → Terminal σ ρ → Prop
  | collect (items) : Mirrors (.collect items) (.collect items)
  | head (item?) : Mirrors (.head item?) (.head item?)
  | each {rec visit} : CallbackMirrors rec visit → Mirrors (.each rec) (.each visit)
  | count {rec test} (counts) : CallbackMirrors rec test →
      Mirrors (.count rec counts) (.count test counts)
  | length (n) : Mirrors (.length n) (.length n)
  | contains {rec target} (found) : rec.Mirrors target →
      Mirrors (.contains rec found) (.contains target found)
  | every {rec test} (passed) : CallbackMirrors rec test →
      Mirrors (.every rec passed) (.every test passed)
  | indexOf {rec target} (pos found?) : rec.Mirrors target →
      Mirrors (.indexOf rec pos found?) (.indexOf target pos found?)
  | groupBy {rec key} (groups) : CallbackMirrors rec key →
      Mirrors (.groupBy rec groups) (.groupBy key groups)
  | extremum {rec rank} (pick best?) : CallbackMirrors rec rank →
      Mirrors (.extremum rec pick best?) (.extremum rank pick best?)
  | reduce {rec fold} (acc?) : (∀ v w, (rec v w).Mirrors (fold v w)) →
      Mirrors (.reduce rec acc?) (.reduce fold acc?)
  | invoke {rec host} (method?) : CallbackMirrors (call rec method?) (call host method?) →
      Mirrors (.invoke rec method?) (.invoke host method?)

theorem Mirrors.canStop {recording : Terminal (Recorded σ) ρ} {terminal : Terminal σ ρ}
    (h : recording.Mirrors terminal) : recording.canStop = terminal.canStop := by
  cases h <;> rfl

theorem Mirrors.finish {recording : Terminal (Recorded σ) ρ} {terminal : Terminal σ ρ}
    (h : recording.Mirrors terminal) : recording.finish = terminal.finish := by
  cases h <;> rfl

/-- The acceptances have the same outcome, but for the record. -/
structure Acceptance.Mirrors (recording : Acceptance (Recorded σ) ρ) (a : Acceptance σ ρ) :
    Prop where
  status : recording.status = a.status
  terminal : recording.terminal.Mirrors a.terminal
  control : recording.control = a.control
  world : recording.world.plain = a.world

/-- **Terminals that mirror each other take in elements alike.** -/
theorem accept_mirrors {recording : Terminal (Recorded σ) ρ} {terminal : Terminal σ ρ}
    (h : recording.Mirrors terminal) (control : Control) (item : Value)
    (w : World (Recorded σ)) :
    (recording.accept control item w).Mirrors (terminal.accept control item w.plain) := by
  cases h with
  | collect items => exact ⟨rfl, .collect _, rfl, rfl⟩
  | head item? => exact ⟨rfl, .head _, rfl, rfl⟩
  | length n => exact ⟨rfl, .length _, rfl, rfl⟩
  | each hvisit => exact ⟨(hvisit item).result w, .each hvisit, rfl, (hvisit item).world w⟩
  | invoke method? hcall =>
    exact ⟨(hcall item).result w, .invoke method? hcall, rfl, (hcall item).world w⟩
  | count counts htest =>
    have hresult := (htest item).result w
    have hworld := (htest item).world w
    simp only [accept, hresult]
    split
    · exact ⟨rfl, .count _ htest, rfl, hworld⟩
    · exact ⟨rfl, .count _ htest, rfl, hworld⟩
    · exact ⟨rfl, .count _ htest, rfl, hworld⟩
  | contains found htarget =>
    have hresult := (htarget item).result w
    have hworld := (htarget item).world w
    simp only [accept, hresult]
    split
    · exact ⟨rfl, .contains _ htarget, rfl, hworld⟩
    · exact ⟨rfl, .contains _ htarget, rfl, hworld⟩
    · exact ⟨rfl, .contains _ htarget, rfl, hworld⟩
  | every passed htest =>
    have hresult := (htest item).result w
    have hworld := (htest item).world w
    simp only [accept, hresult]
    split
    · exact ⟨rfl, .every _ htest, rfl, hworld⟩
    · exact ⟨rfl, .every _ htest, rfl, hworld⟩
    · exact ⟨rfl, .every _ htest, rfl, hworld⟩
  | indexOf pos found? htarget =>
    have hresult := (htarget item).result w
    have hworld := (htarget item).world w
    simp only [accept, hresult]
    split
    · exact ⟨rfl, .indexOf _ _ htarget, rfl, hworld⟩
    · exact ⟨rfl, .indexOf _ _ htarget, rfl, hworld⟩
    · exact ⟨rfl, .indexOf _ _ htarget, rfl, hworld⟩
  | groupBy groups hkey =>
    have hresult := (hkey item).result w
    have hworld := (hkey item).world w
    simp only [accept, hresult]
    split
    · split
      · exact ⟨rfl, .groupBy _ hkey, rfl, hworld⟩
      · exact ⟨rfl, .groupBy _ hkey, rfl, hworld⟩
    · exact ⟨rfl, .groupBy _ hkey, rfl, hworld⟩
  | extremum pick best? hrank =>
    have hresult := (hrank item).result w
    have hworld := (hrank item).world w
    simp only [accept, hresult]
    split
    · exact ⟨rfl, .extremum _ _ hrank, rfl, hworld⟩
    · exact ⟨rfl, .extremum _ _ hrank, rfl, hworld⟩
  | reduce acc? hfold =>
    cases acc? with
    | none => exact ⟨rfl, .reduce _ hfold, rfl, rfl⟩
    | some acc =>
      have hresult := (hfold acc item).result w
      have hworld := (hfold acc item).world w
      simp only [accept, hresult]
      split
      · exact ⟨rfl, .reduce _ hfold, rfl, hworld⟩
      · exact ⟨rfl, .reduce _ hfold, rfl, hworld⟩

end Terminal

namespace Line

/-- The lines are alike but for the record. -/
structure Mirrors (recording : Line (Recorded σ) ρ) (line : Line σ ρ) : Prop where
  stages : List.Forall₂ Stage.Mirrors recording.stages line.stages
  control : recording.control = line.control
  terminal : recording.terminal.Mirrors line.terminal
  world : recording.world.plain = line.world

structure Passage.Mirrors (recording : Passage (Recorded σ) ρ) (p : Passage σ ρ) : Prop where
  status : recording.status = p.status
  line : recording.line.Mirrors p.line

structure Traversal.Mirrors (recording : Traversal (Recorded σ) ρ) (t : Traversal σ ρ) :
    Prop where
  visited : recording.visited = t.visited
  line : recording.line.Mirrors t.line

theorem send_mirrors {recStages : List (Stage (Recorded σ))} {stages : List (Stage σ)}
    (hstages : List.Forall₂ Stage.Mirrors recStages stages)
    {recTerminal : Terminal (Recorded σ) ρ} {terminal : Terminal σ ρ}
    (hterminal : recTerminal.Mirrors terminal) (control : Control) (item : Value)
    (w : World (Recorded σ)) :
    (send control recTerminal item w recStages).Mirrors
      (send control terminal item w.plain stages) := by
  induction hstages generalizing control item w with
  | nil =>
    obtain ⟨hstatus, hnext, hcontrol, hworld⟩ :=
      Terminal.accept_mirrors hterminal control item w
    exact ⟨hstatus, .nil, hcontrol, hnext, hworld⟩
  | cons hstage hrest ih =>
    rename_i recStage stage recRest rest
    obtain ⟨hflow, hnext, hcontrol, hworld⟩ := Stage.step_mirrors hstage control item w
    simp only [send, hflow, hcontrol]
    cases (stage.step control item w.plain).flow with
    | error fault => exact ⟨rfl, .cons hnext hrest, rfl, hterminal, hworld⟩
    | ok flow =>
      cases flow with
      | drop => exact ⟨rfl, .cons hnext hrest, rfl, hterminal, hworld⟩
      | forward out =>
        have hpassage := ih (stage.step control item w.plain).control out
          (recStage.step control item w).world
        rw [hworld] at hpassage
        obtain ⟨hstatus, hstages, hcontrol, hterminal, hworld⟩ := hpassage
        exact ⟨hstatus, .cons hnext hstages, hcontrol, hterminal, hworld⟩

theorem dispatch_mirrors {recording : Line (Recorded σ) ρ} {line : Line σ ρ}
    (h : recording.Mirrors line) (item : Value) :
    (recording.dispatch item).Mirrors (line.dispatch item) := by
  have hsend := send_mirrors h.stages h.terminal recording.control item recording.world
  rw [h.world] at hsend
  rw [dispatch, dispatch, ← h.control]
  exact hsend

/-- **A line that records goes through a source as the line that does not.** -/
theorem drainUntilStop_mirrors {recording : Line (Recorded σ) ρ} {line : Line σ ρ}
    (h : recording.Mirrors line) (visited : Nat) (source : List Value) :
    (recording.drainUntilStop visited source).Mirrors (line.drainUntilStop visited source) := by
  induction source generalizing recording line visited with
  | nil => exact ⟨rfl, h⟩
  | cons item rest ih =>
    obtain ⟨hstatus, hline⟩ := dispatch_mirrors h item
    simp only [drainUntilStop, h.control, hstatus]
    split
    · exact ⟨rfl, h⟩
    · split
      · exact ih hline (visited + 1)
      · exact ⟨rfl, hline⟩

end Line

end FusedQuery
