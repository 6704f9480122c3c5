/-
  FusedQuery/Proofs/Interchange/Simulation.lean
  =============================================
  **Stages that do each other's work, between stages that they share.**

  Two lists of stages are compared that take the same elements to the same end.  How they count
  may differ, so what is kept from element to element is a relation of the two lists and of the
  numbers of skips they have come to (`Stages.Relation`).  If the relation brings an element to
  the same end in both, and holds again after it, it is a `Simulation`.

  Nothing is asked of the relation once a stop has been asked for: no element is sent after
  that, and the stages that count on are never looked at again.

  What two lists share before and behind them does not tell them apart (`Simulation.between`),
  nor does a terminal (`dispatch_matches`), and so whole runs do not (`Query.run_matches`).
-/
import FusedQuery.Proofs.Fusion.Transparent
import FusedQuery.Proofs.Scan.Agree

namespace FusedQuery

variable {σ ρ : Type}

/-! ### Controls and steps -/

/-- The controls ask alike for a stop, and their numbers of skips go together. -/
structure Control.Like (agree : UInt64 → UInt64 → Prop) (c d : Control) : Prop where
  mayStop : c.mayStop = d.mayStop
  stop : c.stop = d.stop
  skipped : agree c.skipped d.skipped

namespace Control.Like

variable {agree : UInt64 → UInt64 → Prop} {c d : Control}

theorem halt (h : c.Like agree d) : c.halt.Like agree d.halt :=
  ⟨h.mayStop, rfl, h.skipped⟩

theorem eq (h : c.Like Eq d) : c = d := by
  obtain ⟨mayStop, stop, skipped⟩ := c
  obtain ⟨hmayStop, hstop, hskipped⟩ := h
  simp only at hmayStop hstop hskipped
  rw [hmayStop, hstop, hskipped]

end Control.Like

/-- The steps come to the same, of one stage and under controls that are alike. -/
structure Stage.Step.Like (agree : UInt64 → UInt64 → Prop) (s t : Step σ) : Prop where
  flow : s.flow = t.flow
  stage : s.stage = t.stage
  control : s.control.Like agree t.control
  world : s.world = t.world

/-- Between two lists of stages, each with the number of skips that it has come to. -/
abbrev Stages.Relation (σ : Type) := UInt64 → List (Stage σ) → UInt64 → List (Stage σ) → Prop

namespace Line

variable {agree : UInt64 → UInt64 → Prop} {R : Stages.Relation σ} {P : Stage σ → Prop}
  {c d : Control} {L L' : List (Stage σ)}

/-! ### One element in two lists of stages -/

/-- The element came to the same end, and unless it was the last, the stages are related. -/
structure Transit.Matches (agree : UInt64 → UInt64 → Prop) (R : Stages.Relation σ)
    (t u : Transit σ) : Prop where
  flow : t.flow = u.flow
  world : t.world = u.world
  control : t.control.Like agree u.control
  stages : t.control.stop = false → R t.control.skipped t.stages u.control.skipped u.stages

/-- Related stages take every element to the same end and stay related. -/
structure Simulation (agree : UInt64 → UInt64 → Prop) (R : Stages.Relation σ) : Prop where
  alike {c d : Control} {L L' : List (Stage σ)} : c.Like agree d →
    R c.skipped L d.skipped L' → ∀ item w,
      (transit c item w L).Matches agree R (transit d item w L')

/-! ### The stages around -/

/-- The stages of a kind step alike under controls that are alike, and a relation of other
    stages lives through what they do to the numbers of skips. -/
structure Context (agree : UInt64 → UInt64 → Prop) (P : Stage σ → Prop)
    (R : Stages.Relation σ) : Prop where
  stays {stage : Stage σ} (c : Control) (item : Value) (w : World σ) : P stage →
    P (stage.step c item w).stage
  alike {stage : Stage σ} {c d : Control} (item : Value) (w : World σ) : P stage →
    c.Like agree d → (stage.step c item w).Like agree (stage.step d item w)
  moves {stage : Stage σ} {c d : Control} {L L' : List (Stage σ)} (item : Value) (w : World σ) :
    P stage → c.Like agree d → R c.skipped L d.skipped L' →
      R (stage.step c item w).control.skipped L (stage.step d item w).control.skipped L'

/-- What becomes of an element in stages that two lists share. -/
structure Transit.Shared (agree : UInt64 → UInt64 → Prop) (P : Stage σ → Prop)
    (R : Stages.Relation σ) (c d : Control) (t u : Transit σ) : Prop where
  flow : t.flow = u.flow
  world : t.world = u.world
  control : t.control.Like agree u.control
  stages : t.stages = u.stages
  stays : ∀ stage ∈ t.stages, P stage
  moves {L L' : List (Stage σ)} : R c.skipped L d.skipped L' →
    R t.control.skipped L u.control.skipped L'

theorem Context.transit_shared (h : Context agree P R) {shared : List (Stage σ)}
    (hshared : ∀ stage ∈ shared, P stage) (hlike : c.Like agree d) (item : Value)
    (w : World σ) :
    Transit.Shared agree P R c d (transit c item w shared) (transit d item w shared) := by
  induction shared generalizing c d item w with
  | nil => exact ⟨rfl, rfl, hlike, rfl, hshared, id⟩
  | cons stage rest ih =>
    obtain ⟨hstage, hrest⟩ := List.forall_mem_cons.mp hshared
    have hstays := h.stays c item w hstage
    have hmoves : ∀ {L L' : List (Stage σ)}, R c.skipped L d.skipped L' → _ :=
      fun hrelated => h.moves item w hstage hlike hrelated
    obtain ⟨hflow, hnext, hcontrol, hworld⟩ := h.alike item w hstage hlike
    have hended : ∀ stage' ∈ (stage.step c item w).stage :: rest, P stage' :=
      List.forall_mem_cons.mpr ⟨hstays, hrest⟩
    simp only [transit, ← hflow, ← hnext, ← hworld]
    rcases (stage.step c item w).flow with fault | flow
    · exact ⟨rfl, rfl, hcontrol, rfl, hended, hmoves⟩
    · cases flow with
      | drop => exact ⟨rfl, rfl, hcontrol, rfl, hended, hmoves⟩
      | forward next =>
        have honward := ih hrest hcontrol next (stage.step c item w).world
        constructor
        case flow => exact honward.flow
        case world => exact honward.world
        case control => exact honward.control
        case stages => exact congrArg ((stage.step c item w).stage :: ·) honward.stages
        case stays => exact List.forall_mem_cons.mpr ⟨hstays, honward.stays⟩
        case moves =>
          intro L L' hrelated
          exact honward.moves (hmoves hrelated)

/-- Related stages with the same stages behind them. -/
inductive Followed (P : Stage σ → Prop) (R : Stages.Relation σ) : Stages.Relation σ
  | mk {k l L L' behind} : R k L l L' → (∀ stage ∈ behind, P stage) →
      Followed P R k (L ++ behind) l (L' ++ behind)

/-- Related stages with the same stages before them. -/
inductive Preceded (P : Stage σ → Prop) (R : Stages.Relation σ) : Stages.Relation σ
  | mk {k l L L' front} : (∀ stage ∈ front, P stage) → R k L l L' →
      Preceded P R k (front ++ L) l (front ++ L')

theorem Context.followed (h : Context agree P R) : Context agree P (Followed P R) where
  stays := h.stays
  alike := h.alike
  moves := by
    rintro stage c d _ _ item w hstage hlike ⟨hrelated, hbehind⟩
    exact ⟨h.moves item w hstage hlike hrelated, hbehind⟩

/-- The stop is never taken back, so a relation that is needed after the stages behind has held
    before them. -/
theorem Simulation.followed (hsim : Simulation agree R) (h : Context agree P R) :
    Simulation agree (Followed P R) := by
  constructor
  rintro c d _ _ hlike ⟨hrelated, hbehind⟩ item w
  rename_i L L' behind
  obtain ⟨hflow, hworld, hcontrol, hstages⟩ := hsim.alike hlike hrelated item w
  rw [transit_append, transit_append]
  generalize transit c item w L = t at hflow hworld hcontrol hstages
  generalize transit d item w L' = u at hflow hworld hcontrol hstages
  simp only [Transit.onward, ← hflow, ← hworld]
  rcases t.flow with fault | flow
  · exact ⟨rfl, rfl, hcontrol, fun hstop => ⟨hstages hstop, hbehind⟩⟩
  · cases flow with
    | drop => exact ⟨rfl, rfl, hcontrol, fun hstop => ⟨hstages hstop, hbehind⟩⟩
    | forward next =>
      have hlast := h.transit_shared hbehind hcontrol next t.world
      have hframe := transit_frame t.control next t.world behind
      refine ⟨hlast.flow, hlast.world, hlast.control, ?_⟩
      intro hstop
      have hgoes : t.control.stop = false :=
        Bool.eq_false_iff.mpr fun hstopped => by
          rw [hframe.stop_of_stop hstopped] at hstop
          cases hstop
      simp only [← hlast.stages]
      exact ⟨hlast.moves (hstages hgoes), hlast.stays⟩

theorem Simulation.preceded (hsim : Simulation agree R) (h : Context agree P R) :
    Simulation agree (Preceded P R) := by
  constructor
  rintro c d _ _ hlike ⟨hfront, hrelated⟩ item w
  rename_i L L' front
  have hfirst := h.transit_shared hfront hlike item w
  rw [transit_append, transit_append]
  generalize transit c item w front = t at hfirst
  generalize transit d item w front = u at hfirst
  have hmoved := hfirst.moves hrelated
  simp only [Transit.onward, ← hfirst.flow, ← hfirst.world, ← hfirst.stages]
  rcases t.flow with fault | flow
  · exact ⟨rfl, rfl, hfirst.control, fun _ => ⟨hfirst.stays, hmoved⟩⟩
  · cases flow with
    | drop => exact ⟨rfl, rfl, hfirst.control, fun _ => ⟨hfirst.stays, hmoved⟩⟩
    | forward next =>
      obtain ⟨hflow, hworld, hcontrol, hstages⟩ :=
        hsim.alike hfirst.control hmoved next t.world
      exact ⟨hflow, hworld, hcontrol, fun hstop => ⟨hfirst.stays, hstages hstop⟩⟩

/-- **Stages around two lists do not tell them apart.** -/
theorem Simulation.between (hsim : Simulation agree R) (h : Context agree P R) :
    Simulation agree (Preceded P (Followed P R)) :=
  (hsim.followed h).preceded h.followed

/-! ### Whole lines -/

/-- Lines with the same terminal in the same world, whose stages are related unless a stop has
    been asked for. -/
structure Matches (agree : UInt64 → UInt64 → Prop) (R : Stages.Relation σ)
    (line other : Line σ ρ) : Prop where
  control : line.control.Like agree other.control
  terminal : line.terminal = other.terminal
  world : line.world = other.world
  stages : line.control.stop = false →
    R line.control.skipped line.stages other.control.skipped other.stages

structure Passage.Matches (agree : UInt64 → UInt64 → Prop) (R : Stages.Relation σ)
    (p p' : Passage σ ρ) : Prop where
  status : p.status = p'.status
  line : p.line.Matches agree R p'.line

structure Traversal.Matches (agree : UInt64 → UInt64 → Prop) (R : Stages.Relation σ)
    (t u : Traversal σ ρ) : Prop where
  visited : t.visited = u.visited
  line : t.line.Matches agree R u.line

/-- A terminal hands back the control as it came, or with a stop asked for. -/
theorem dispatch_matches (hsim : Simulation agree R) {line other : Line σ ρ}
    (h : line.Matches agree R other) (hstop : line.control.stop = false) (item : Value) :
    (line.dispatch item).Matches agree R (other.dispatch item) := by
  obtain ⟨hflow, hworld, hcontrol, hstages⟩ :=
    hsim.alike h.control (h.stages hstop) item line.world
  rw [dispatch_eq_deliver, dispatch_eq_deliver, ← h.terminal, ← h.world]
  generalize transit line.control item line.world line.stages = t at *
  generalize transit other.control item line.world other.stages = u at *
  simp only [Transit.deliver, ← hflow, ← hworld]
  rcases t.flow with fault | flow
  · exact ⟨rfl, hcontrol, rfl, rfl, hstages⟩
  · cases flow with
    | drop => exact ⟨rfl, hcontrol, rfl, rfl, hstages⟩
    | forward out =>
      simp only [line.terminal.accept_eq t.control, line.terminal.accept_eq u.control,
        Terminal.Acceptance.onto]
      refine ⟨rfl, ?_, rfl, rfl, ?_⟩
      · split
        · exact hcontrol.halt
        · exact hcontrol
      · split
        · intro hhalted
          cases hhalted
        · exact hstages

/-- **Lines that match go through a source alike.**  By induction on the source; once a stop is
    asked for in the one, it is in the other, and nothing more is sent. -/
theorem drainUntilStop_matches (hsim : Simulation agree R) {line other : Line σ ρ}
    (h : line.Matches agree R other) (visited : Nat) (source : List Value) :
    (line.drainUntilStop visited source).Matches agree R
      (other.drainUntilStop visited source) := by
  induction source generalizing line other visited with
  | nil => exact ⟨rfl, h⟩
  | cons item rest ih =>
    simp only [drainUntilStop, ← h.control.stop]
    cases hstop : line.control.stop with
    | true => exact ⟨rfl, h⟩
    | false =>
      obtain ⟨hstatus, hline⟩ := dispatch_matches hsim h hstop item
      simp only [Bool.false_eq_true, ↓reduceIte, ← hstatus]
      cases (line.dispatch item).status with
      | error fault => exact ⟨rfl, hline⟩
      | ok _ => exact ih hline (visited + 1)

end Line

/-! ### Runs -/

/-- The runs have the same result in the same world, by way of as many elements, and leave the
    stop alike. -/
structure Run.SameAs (r s : Run σ ρ) : Prop where
  result : r.result = s.result
  world : r.world = s.world
  mayStop : r.query.control.mayStop = s.query.control.mayStop
  stop : r.query.control.stop = s.query.control.stop
  visited : r.query.stats.visited = s.query.stats.visited
  stoppedEarly : r.query.stats.stoppedEarly = s.query.stats.stoppedEarly

namespace Run.SameAs

variable {r s t : Run σ ρ}

theorem symm (h : r.SameAs s) : s.SameAs r :=
  ⟨h.result.symm, h.world.symm, h.mayStop.symm, h.stop.symm, h.visited.symm,
    h.stoppedEarly.symm⟩

theorem trans (h : r.SameAs s) (h' : s.SameAs t) : r.SameAs t :=
  ⟨h.result.trans h'.result, h.world.trans h'.world, h.mayStop.trans h'.mayStop,
    h.stop.trans h'.stop, h.visited.trans h'.visited, h.stoppedEarly.trans h'.stoppedEarly⟩

end Run.SameAs

/-- Their numbers of skips go together as well. -/
structure Run.Matches (agree : UInt64 → UInt64 → Prop) (r s : Run σ ρ) : Prop
    extends r.SameAs s where
  skipped : agree r.query.control.skipped s.query.control.skipped

/-- The same of runs that merge their stages. -/
theorem Run.Matches.of_unmerged {agree : UInt64 → UInt64 → Prop} {r s : Run σ ρ}
    (h : r.unmerged.Matches agree s.unmerged) : r.Matches agree s :=
  ⟨⟨h.result, h.world, h.mayStop, h.stop, h.visited, h.stoppedEarly⟩, h.skipped⟩

namespace Query

/-- **Queries that differ in related stages run alike.**  The relation has to hold of the stages
    as they are before their first element, with no skip done. -/
theorem run_matches {agree : UInt64 → UInt64 → Prop} {R : Stages.Relation σ}
    (hsim : Line.Simulation agree R) (hagree : agree 0 0) (q : Query σ)
    {L L' : List (Stage σ)} (hL : L ≠ []) (hL' : L' ≠ [])
    (hrelated : R 0 (L.map Stage.reset) 0 (L'.map Stage.reset))
    (hstop : L.any Stage.canStop = L'.any Stage.canStop) (terminal : Terminal σ ρ)
    (w : World σ) :
    (({ q with stages := L }).run terminal w).Matches agree
      (({ q with stages := L' }).run terminal w) := by
  have hline : ((({ q with stages := L }).prepare terminal).line terminal w).Matches agree R
      ((({ q with stages := L' }).prepare terminal).line terminal w) := by
    constructor
    case control => exact ⟨congrArg (terminal.canStop || ·) hstop, rfl, hagree⟩
    case terminal => rfl
    case world => rfl
    case stages => exact fun _ => hrelated
  have hscan := scan?_of_stages (q := { q with stages := L }) hL terminal
  have hscan' := scan?_of_stages (q := { q with stages := L' }) hL' terminal
  obtain ⟨hvisited, hcontrol, hterminal, hworld, -⟩ :=
    Line.drainUntilStop_matches hsim hline 0 q.source
  simp only [run, traverse_prepare hscan, traverse_prepare hscan', ← hvisited]
  cases (Line.drainUntilStop _ 0 q.source).visited with
  | error fault => exact ⟨⟨rfl, hworld, hcontrol.mayStop, hcontrol.stop, rfl, rfl⟩, hcontrol.skipped⟩
  | ok visited =>
    have hfinish := congrArg Terminal.finish hterminal
    exact ⟨⟨hfinish, hworld, hcontrol.mayStop, hcontrol.stop, rfl, rfl⟩, hcontrol.skipped⟩

end Query

end FusedQuery
